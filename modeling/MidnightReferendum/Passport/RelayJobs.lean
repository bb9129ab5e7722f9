import MidnightReferendum.Passport.Walletless

/-!
# The jobs of the relay

What the relay does by itself beside the calls of `submitTx`, and what each accepted event does. The relay has a
job only for a request that has arrived, and a job that has died stays dead.
-/

namespace MidnightReferendum.Passport.Walletless

open Execution Js Relayer

variable {opts : Options} {w w' : World}

/-- The relay has an undecided job of the action. -/
def Undecided (w : World) (actionId : JsString) : Prop :=
  ∃ job, w.jobs actionId = some job ∧ job.state.status = .pending

/-- The request of the action is on its way, or its job is undecided. -/
def Live (w : World) (actionId : JsString) : Prop :=
  (∃ request ∈ w.sent, request.actionId = actionId) ∨ Undecided w actionId

/-- The request of an action, on its way or at the relay. -/
def Known (w : World) (actionId : JsString) (request : WalletlessActionRequest) : Prop :=
  (request ∈ w.sent ∧ request.actionId = actionId) ∨ ∃ job, w.jobs actionId = some job ∧ job.request = request

/-- No request has been made for the action. -/
def Fresh (w : World) (actionId : JsString) : Prop :=
  (∀ request, ¬Known w actionId request) ∧ actionId ∉ w.died

/-- The relay has a job for a request that has arrived, and a job that has died is dead. -/
structure RelayTidy (w : World) : Prop where
  used : ∀ actionId request, Known w actionId request → actionId ∈ w.used
  arrived : ∀ request ∈ w.sent, w.jobs request.actionId = none ∧ request.actionId ∉ w.died
  jobId : ∀ actionId job, w.jobs actionId = some job → job.request.actionId = actionId
  died : ∀ actionId ∈ w.died, actionId ∈ w.used ∧
    ∀ job, w.jobs actionId = some job → job.state.dead = true

theorem no_receipt {status : PublicStatus} :
    (none : Option CanonicalReceipt).isSome = true → status = .confirmed := nofun

theorem relayTidy_start : RelayTidy start where
  used actionId request hknown := by
    rcases hknown with ⟨hmem, _⟩ | ⟨job, hjob, _⟩
    · cases hmem
    · cases hjob
  arrived request hmem := by cases hmem
  jobId actionId job hjob := by cases hjob
  died actionId hdied := by cases hdied

/-! ## The relay by itself -/

/-- What happens while no answer comes. -/
structure Beside (w w' : World) : Prop where
  pending : w'.pending = w.pending
  used : w'.used = w.used
  running : w'.running = w.running
  ended : w'.ended = w.ended
  known : ∀ actionId request, Known w' actionId request → Known w actionId request
  live : ∀ actionId, Live w' actionId → Live w actionId
  died : w.died ⊆ w'.died
  fresh : ∀ actionId, Fresh w actionId → Fresh w' actionId
  tidy : RelayTidy w → RelayTidy w'

theorem dead_of_not_pending {state : JobState} (h : state.dead = true) : state.status ≠ .pending := by
  intro hpending
  simp [JobState.dead, hpending] at h

theorem mem_filter_sent {sent : List WalletlessActionRequest} {request : WalletlessActionRequest}
    {actionId : JsString} (h : request ∈ sent.filter fun request ↦ request.actionId ≠ actionId) :
    request ∈ sent ∧ request.actionId ≠ actionId := by
  rw [List.mem_filter, decide_eq_true_eq] at h
  exact h

/-- A new state of a job, whose request was known. -/
theorem beside_setJob {actionId : JsString} {job : RelayJob} {sent : List WalletlessActionRequest}
    (hknown : Known w actionId job.request) (hlive : Live w actionId)
    (hid : job.request.actionId = actionId) (hnot : actionId ∉ w.died)
    (hsent : ∀ request ∈ sent, request ∈ w.sent ∧ request.actionId ≠ actionId) :
    Beside w { w.setJob actionId job with sent := sent } := by
  have hjobs : ∀ {id found}, Function.update w.jobs actionId (some job) id = some found →
      id = actionId ∧ found = job ∨ id ≠ actionId ∧ w.jobs id = some found := by
    intro id found hfound
    by_cases hsame : id = actionId
    · subst hsame
      rw [Function.update_self] at hfound
      exact Or.inl ⟨rfl, (Option.some.inj hfound).symm⟩
    · rw [Function.update_of_ne hsame] at hfound
      exact Or.inr ⟨hsame, hfound⟩
  have hdied : ∀ {id}, id ∈ (w.setJob actionId job).died →
      id ∈ w.died ∨ id = actionId ∧ job.state.dead = true := by
    intro id hmem
    simp only [World.setJob] at hmem
    split at hmem
    · next hdead =>
      rcases List.mem_cons.mp hmem with rfl | hold
      · exact Or.inr ⟨rfl, hdead⟩
      · exact Or.inl hold
    · exact Or.inl hmem
  have hback : ∀ id request, Known { w.setJob actionId job with sent := sent } id request →
      Known w id request := by
    rintro id request (⟨hmem, rfl⟩ | ⟨found, hfound, rfl⟩)
    · exact Or.inl ⟨(hsent request hmem).1, rfl⟩
    · rcases hjobs hfound with ⟨rfl, rfl⟩ | ⟨_, hold⟩
      · exact hknown
      · exact Or.inr ⟨found, hold, rfl⟩
  refine ⟨rfl, rfl, rfl, rfl, hback, ?_, ?_, ?_, ?_⟩
  · rintro id (⟨request, hmem, rfl⟩ | ⟨found, hfound, hpending⟩)
    · exact Or.inl ⟨request, (hsent request hmem).1, rfl⟩
    · rcases hjobs hfound with ⟨rfl, rfl⟩ | ⟨_, hold⟩
      · exact hlive
      · exact Or.inr ⟨found, hold, hpending⟩
  · intro id hmem
    simp only [World.setJob]
    split
    · exact List.mem_cons_of_mem _ hmem
    · exact hmem
  · rintro id ⟨hnone, hmem⟩
    refine ⟨fun request hrequest ↦ hnone request (hback id request hrequest), fun hnew ↦ ?_⟩
    rcases hdied hnew with hold | ⟨rfl, _⟩
    · exact hmem hold
    · exact hnone _ hknown
  · intro h
    refine ⟨fun id request hrequest ↦ h.used id request (hback id request hrequest), ?_, ?_, ?_⟩
    · intro request hmem
      obtain ⟨hold, hne⟩ := hsent request hmem
      obtain ⟨hnone, hdead⟩ := h.arrived request hold
      refine ⟨(Function.update_of_ne hne _ _).trans hnone, fun hnew ↦ ?_⟩
      rcases hdied hnew with hmem' | ⟨heq, _⟩
      · exact hdead hmem'
      · exact hne heq
    · intro id found hfound
      rcases hjobs hfound with ⟨rfl, rfl⟩ | ⟨_, hold⟩
      · exact hid
      · exact h.jobId id found hold
    · intro id hmem
      rcases hdied hmem with hold | ⟨rfl, hdead⟩
      · obtain ⟨hused, hall⟩ := h.died id hold
        refine ⟨hused, fun found hfound ↦ ?_⟩
        rcases hjobs hfound with ⟨rfl, rfl⟩ | ⟨_, hfound'⟩
        · exact absurd hold hnot
        · exact hall found hfound'
      · refine ⟨h.used id job.request hknown, fun found hfound ↦ ?_⟩
        rcases hjobs hfound with ⟨_, rfl⟩ | ⟨hne, _⟩
        · exact hdead
        · exact absurd rfl hne

/-- Requests or jobs get lost. -/
theorem beside_loss {sent : List WalletlessActionRequest} {jobs : JsString → Option RelayJob}
    (hsent : ∀ request ∈ sent, request ∈ w.sent)
    (hjobs : ∀ id job, jobs id = some job → w.jobs id = some job) : Beside w { w with sent, jobs } := by
  have hback : ∀ id request, Known { w with sent, jobs } id request → Known w id request := by
    rintro id request (⟨hmem, rfl⟩ | ⟨found, hfound, rfl⟩)
    · exact Or.inl ⟨hsent request hmem, rfl⟩
    · exact Or.inr ⟨found, hjobs id found hfound, rfl⟩
  refine ⟨rfl, rfl, rfl, rfl, hback, ?_, fun _ h ↦ h, ?_, ?_⟩
  · rintro id (⟨request, hmem, rfl⟩ | ⟨found, hfound, hpending⟩)
    · exact Or.inl ⟨request, hsent request hmem, rfl⟩
    · exact Or.inr ⟨found, hjobs id found hfound, hpending⟩
  · rintro id ⟨hnone, hmem⟩
    exact ⟨fun request hrequest ↦ hnone request (hback id request hrequest), hmem⟩
  · intro h
    refine ⟨fun id request hrequest ↦ h.used id request (hback id request hrequest), ?_, ?_, ?_⟩
    · intro request hmem
      obtain ⟨hnone, hdead⟩ := h.arrived request (hsent request hmem)
      refine ⟨?_, hdead⟩
      cases hfound : jobs request.actionId with
      | none => exact hfound
      | some job => cases hnone.symm.trans (hjobs _ job hfound)
    · intro id job hfound
      exact h.jobId id job (hjobs id job hfound)
    · intro id hmem
      obtain ⟨hused, hall⟩ := h.died id hmem
      exact ⟨hused, fun job hfound ↦ hall job (hjobs id job hfound)⟩

/-! ## One event -/

/-- What an accepted event does. -/
inductive Effect (opts : Options) (w : World) : Event → World → Prop where
  | called (own : Own) (hrunning : w.running = none) (hunused : own.actionId ∉ w.used) :
    Effect opts w (.submitTx own) { w with
      used := own.actionId :: w.used
      running := some (⟨own, w.foundDead, false⟩, .storeGet own) }
  | answered (reply : Reply) (call : Call) (frame : Frame) (w₁ : World) (next : Next)
      (hrunning : w.running = some (call, frame)) (hperform : perform opts w frame reply = some (w₁, next)) :
    Effect opts w (.answer reply) (w₁.continue call next)
  | reloaded (kept : Bool) : Effect opts w (.reload kept)
    { w with running := none, pending := if kept then w.pending else none }
  | beside (e : Event) (w' : World) (hbeside : Beside w w') : Effect opts w e w'

theorem effect_of_step (h : RelayTidy w) {e : Event} (hok : step opts w e = .ok w') : Effect opts w e w' := by
  have hsome := stepOption_of_step hok
  cases e with
  | submitTx own =>
    simp only [stepOption] at hsome
    split at hsome
    · next hfree =>
      obtain rfl := Option.some.inj hsome
      exact .called own (Option.isNone_iff_eq_none.mp hfree.1) hfree.2
    · cases hsome
  | answer reply =>
    simp only [stepOption] at hsome
    split at hsome
    · next call frame hrunning =>
      obtain ⟨⟨w₁, next⟩, hperform, rfl⟩ := Option.map_eq_some_iff.mp hsome
      exact .answered reply call frame w₁ next hrunning hperform
    · cases hsome
  | reload kept =>
    obtain rfl := Option.some.inj hsome
    exact .reloaded kept
  | arrives actionId state =>
    simp only [stepOption] at hsome
    split at hsome
    · next request hfound =>
      obtain rfl := Option.some.inj hsome
      have hmem := List.mem_of_find?_eq_some hfound
      have hid : request.actionId = actionId := by simpa using List.find?_some hfound
      refine .beside _ _ (beside_setJob (Or.inl ⟨hmem, hid⟩) (Or.inl ⟨request, hmem, hid⟩) hid ?_ ?_)
      · exact hid ▸ (h.arrived request hmem).2
      · exact fun other hother ↦ mem_filter_sent hother
    · cases hsome
  | drops actionId =>
    obtain rfl := Option.some.inj hsome
    exact .beside _ _ (beside_loss (fun other hother ↦ (mem_filter_sent hother).1) fun _ _ hjob ↦ hjob)
  | progress actionId state =>
    simp only [stepOption] at hsome
    split at hsome
    · next job hjob =>
      split at hsome
      · next hpending =>
        obtain rfl := Option.some.inj hsome
        refine .beside _ _ (beside_setJob (Or.inr ⟨job, hjob, rfl⟩) (Or.inr ⟨job, hjob, hpending⟩)
          (h.jobId actionId job hjob) ?_ ?_)
        · intro hdied
          exact dead_of_not_pending ((h.died actionId hdied).2 job hjob) hpending
        · intro request hmem
          refine ⟨hmem, fun heq ↦ ?_⟩
          cases (heq ▸ (h.arrived request hmem).1).symm.trans hjob
      · cases hsome
    · cases hsome
  | purge actionId =>
    obtain rfl := Option.some.inj hsome
    refine .beside _ _ (beside_loss (fun _ hmem ↦ hmem) fun id job hjob ↦ ?_)
    by_cases hsame : id = actionId
    · subst hsame
      rw [Function.update_self] at hjob
      cases hjob
    · rwa [Function.update_of_ne hsame] at hjob

/-! ## Requests -/

/-- A call draws an id that has not been used. -/
theorem RelayTidy.fresh (h : RelayTidy w) {actionId : JsString} (hunused : actionId ∉ w.used) :
    Fresh w actionId := by
  refine ⟨fun request hknown ↦ hunused (h.used actionId request hknown), fun hdied ↦ ?_⟩
  exact hunused (h.died actionId hdied).1

theorem RelayTidy.called (h : RelayTidy w) (actionId : JsString) (running : Option (Call × Frame)) :
    RelayTidy { w with used := actionId :: w.used, running } where
  used id request hknown := List.mem_cons_of_mem _ (h.used id request hknown)
  arrived := h.arrived
  jobId := h.jobId
  died id hdied := ⟨List.mem_cons_of_mem _ (h.died id hdied).1, (h.died id hdied).2⟩

/-- What is known after a request has been sent. -/
theorem known_send {request : WalletlessActionRequest} {pending : Option PendingActionRecord} {id : JsString}
    {found : WalletlessActionRequest} (h : Known { w with pending, sent := request :: w.sent } id found) :
    (id = request.actionId ∧ found = request) ∨ Known w id found := by
  rcases h with ⟨hmem, rfl⟩ | hjob
  · rcases List.mem_cons.mp hmem with rfl | hold
    · exact Or.inl ⟨rfl, rfl⟩
    · exact Or.inr (Or.inl ⟨hold, rfl⟩)
  · exact Or.inr (Or.inr hjob)

theorem Fresh.jobs_eq_none {actionId : JsString} (h : Fresh w actionId) : w.jobs actionId = none := by
  cases hfound : w.jobs actionId with
  | none => rfl
  | some job => exact (h.1 job.request (Or.inr ⟨job, hfound, rfl⟩)).elim

/-- The first request of an action is sent. -/
theorem RelayTidy.send (h : RelayTidy w) {request : WalletlessActionRequest}
    (hfresh : Fresh w request.actionId) (hused : request.actionId ∈ w.used)
    (pending : Option PendingActionRecord) : RelayTidy { w with pending, sent := request :: w.sent } where
  used id found hknown := by
    rcases known_send hknown with ⟨rfl, _⟩ | hold
    · exact hused
    · exact h.used id found hold
  arrived found hmem := by
    rcases List.mem_cons.mp hmem with rfl | hold
    · exact ⟨hfresh.jobs_eq_none, hfresh.2⟩
    · exact h.arrived found hold
  jobId := h.jobId
  died := h.died

end MidnightReferendum.Passport.Walletless
