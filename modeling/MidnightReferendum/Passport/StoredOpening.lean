import MidnightReferendum.Passport.WalletlessVote
import MidnightReferendum.ReferendumV2.Conservation

/-!
# The stored opening

Every vote stores a new opening before it proves and submits its transaction, but the submission may return the
transaction of an earlier vote, whose opening is gone. As long as no call is answered with the receipt of an
action that an earlier call has recorded, the stored opening opens the ballot commitment of the transaction that
a vote resolves with.
-/

namespace MidnightReferendum.Passport.Walletless

open MidnightReferendum.Compact Execution Js Relayer

/-! ## The submission -/

section Submission

variable {opts : Options} {w w₁ : World} {call : Call} {chain : JsString → Option JsString}

/-- Every request of an action carries the transaction. -/
def Carries (w : World) (actionId tx : JsString) : Prop := ∀ request, Known w actionId request → request.tx = tx

/-- Receipts name transactions on chain with the calls of their jobs. -/
def TrueReceipts (chain : JsString → Option JsString) (w : World) : Prop :=
  ∀ actionId job, w.jobs actionId = some job → ∀ receipt ∈ job.state.receipt,
    chain receipt.transactionId = some job.request.tx

/-- What a call knows where it waits. A call that has sent its own transaction waits for the job of it. -/
def FrameOwn (chain : JsString → Option JsString) (w : World) (call : Call) : Frame → Prop
  | .storeGet own => (own = call.own ∧ call.submitted = false) ∧ Fresh w own.actionId ∧ own.actionId ∈ w.used
  | .getAction own _ => (own = call.own ∧ call.submitted = false) ∧ Fresh w own.actionId ∧ own.actionId ∈ w.used
  | .deleteStale own => (own = call.own ∧ call.submitted = false) ∧ Fresh w own.actionId ∧ own.actionId ∈ w.used
  | .issue own => (own = call.own ∧ call.submitted = false) ∧ Fresh w own.actionId ∧ own.actionId ∈ w.used
  | .put own _ => (own = call.own ∧ call.submitted = false) ∧ Fresh w own.actionId ∧ own.actionId ∈ w.used
  | .submit own => own = call.own ∧ Carries w own.actionId own.tx
  | .getReceipt wait _ => call.submitted = true → Carries w wait.initial.actionId call.own.tx
  | .poll wait => call.submitted = true → Carries w wait.initial.actionId call.own.tx
  | .deleteDone transactionId => chain transactionId = some call.own.tx

/-- A call goes on as its waits are described, or ends with its own transaction on chain. -/
def NextOwn (chain : JsString → Option JsString) (w : World) (call : Call) : Next → Prop
  | .goes frame => FrameOwn chain w (call.after frame) frame
  | .ends outcome => ∀ transactionId, outcome = .resolved transactionId → chain transactionId = some call.own.tx

theorem FrameOwn.beside {w' : World} {frame : Frame} (h : FrameOwn chain w call frame) (hbeside : Beside w w') :
    FrameOwn chain w' call frame := by
  have hcarries : ∀ {id tx}, Carries w id tx → Carries w' id tx :=
    fun hold request hknown ↦ hold request (hbeside.known _ request hknown)
  have hfresh : ∀ {id}, Fresh w id ∧ id ∈ w.used → Fresh w' id ∧ id ∈ w'.used :=
    fun ⟨hfresh, hused⟩ ↦ ⟨hbeside.fresh _ hfresh, hbeside.used ▸ hused⟩
  cases frame with
  | storeGet own => exact ⟨h.1, hfresh h.2⟩
  | getAction own previous => exact ⟨h.1, hfresh h.2⟩
  | deleteStale own => exact ⟨h.1, hfresh h.2⟩
  | issue own => exact ⟨h.1, hfresh h.2⟩
  | put own actionCapability => exact ⟨h.1, hfresh h.2⟩
  | submit own => exact ⟨h.1, hcarries h.2⟩
  | getReceipt wait job => exact fun hsubmitted ↦ hcarries (h hsubmitted)
  | poll wait => exact fun hsubmitted ↦ hcarries (h hsubmitted)
  | deleteDone transactionId => exact h

theorem FrameOwn.grows {chain' : JsString → Option JsString} {frame : Frame} (h : FrameOwn chain w call frame)
    (hgrows : ∀ id tx, chain id = some tx → chain' id = some tx) : FrameOwn chain' w call frame := by
  cases frame with
  | deleteDone transactionId => exact hgrows transactionId _ h
  | _ => exact h

theorem nextOwn_rejected (reason : Rejection) : NextOwn chain w call (.ends (.rejected reason)) := by
  intro transactionId heq
  cases heq

theorem awaitReceipt_own {wait : Wait}
    (h : call.submitted = true → Carries w wait.initial.actionId call.own.tx)
    (found : Option WalletlessActionJob) : NextOwn chain w call (awaitReceipt wait found) := by
  unfold awaitReceipt
  split
  · exact nextOwn_rejected _
  · split
    · exact nextOwn_rejected _
    · exact h

theorem afterReceipt_own {wait : Wait} {job : WalletlessActionJob} {now : ℤ} (hreceipts : TrueReceipts chain w)
    (h : call.submitted = true → Carries w wait.initial.actionId call.own.tx)
    (hrecovers : call.submitted = false → ∀ found ∈ w.jobs wait.initial.actionId,
      ∀ receipt ∈ found.state.receipt, matchesJob wait job receipt = false) :
    NextOwn chain w call
      (afterReceipt wait job now ((w.jobs wait.initial.actionId).map RelayJob.state)) := by
  unfold afterReceipt
  split
  · next state hstate =>
    obtain ⟨found, hfound, rfl⟩ := Option.map_eq_some_iff.mp hstate
    split
    · next receipt hreceipt =>
      split
      · next hmatches =>
        have hsubmitted : call.submitted = true := by
          rw [← Bool.not_eq_false]
          intro hnot
          cases hmatches.symm.trans (hrecovers hnot found hfound receipt hreceipt)
        have htx : found.request.tx = call.own.tx :=
          h hsubmitted found.request (Or.inr ⟨found, hfound, rfl⟩)
        have hchain : chain receipt.transactionId = some call.own.tx :=
          htx ▸ hreceipts _ found hfound receipt hreceipt
        exact hchain
      · exact nextOwn_rejected _
    · split
      · exact nextOwn_rejected _
      · split
        · exact nextOwn_rejected _
        · exact h
  · split
    · exact nextOwn_rejected _
    · exact h

/-- The request of a call is known only with its own transaction. -/
theorem carries_send {own : Own} {actionCapability : JsString} (hfresh : Fresh w own.actionId)
    (pending : Option PendingActionRecord) :
    Carries { w with pending, sent := own.request opts actionCapability :: w.sent } own.actionId own.tx := by
  intro request hknown
  rcases known_send hknown with ⟨_, rfl⟩ | hold
  · rfl
  · exact (hfresh.1 request hold).elim

theorem perform_own (h : RelayTidy w) (hreceipts : TrueReceipts chain w) {frame : Frame} {reply : Reply}
    {next : Next} (hframe : FrameOwn chain w call frame)
    (hrecovers : ∀ wait job now, frame = .getReceipt wait job → reply = .succeeds now →
      call.submitted = false → ∀ found ∈ w.jobs wait.initial.actionId,
        ∀ receipt ∈ found.state.receipt, matchesJob wait job receipt = false)
    (hperform : perform opts w frame reply = some (w₁, next)) :
    RelayTidy w₁ ∧ w₁.jobs = w.jobs ∧ NextOwn chain w₁ call next := by
  have hpending : ∀ pending, RelayTidy { w with pending } := fun _ ↦ ⟨h.used, h.arrived, h.jobId, h.died⟩
  unfold perform at hperform
  split at hperform
  · cases hperform
    exact ⟨h, rfl, nextOwn_rejected _⟩
  · split at hperform
    · cases hperform
      exact ⟨h, rfl, hframe⟩
    · cases hperform
      exact ⟨h, rfl, hframe⟩
  · have hnone : call.submitted = true → ∀ id, Carries w id call.own.tx := by
      intro hsubmitted
      cases hframe.1.2.symm.trans hsubmitted
    split at hperform
    · split at hperform
      · cases hperform
        exact ⟨h, rfl, awaitReceipt_own (fun hsubmitted ↦ hnone hsubmitted _) _⟩
      · cases hperform
        exact ⟨h, rfl, hframe⟩
    · cases hperform
      exact ⟨h, rfl, hframe⟩
  · cases hperform
    exact ⟨hpending none, rfl, hframe⟩
  · cases hperform
    exact ⟨hpending none, rfl, nextOwn_rejected _⟩
  · cases hperform
    exact ⟨h, rfl, hframe⟩
  · next own actionCapability now =>
    cases hperform
    obtain ⟨⟨hown, _⟩, hfresh, hused⟩ := hframe
    have hrequest : Fresh w (own.request opts actionCapability).actionId := hfresh
    exact ⟨h.send hrequest hused _, rfl, hown, carries_send hfresh _⟩
  · cases hperform
    exact ⟨hpending _, rfl, nextOwn_rejected _⟩
  · next own now =>
    obtain ⟨found, hfound, heq⟩ := Option.map_eq_some_iff.mp hperform
    cases heq
    obtain ⟨job, hjob, rfl⟩ := Option.map_eq_some_iff.mp hfound
    have hid : job.public.actionId = own.actionId := h.jobId own.actionId job hjob
    refine ⟨h, rfl, awaitReceipt_own (fun _ ↦ ?_) _⟩
    exact hid ▸ hframe.1 ▸ hframe.2
  · next wait job now =>
    cases hperform
    exact ⟨h, rfl, afterReceipt_own hreceipts hframe (hrecovers wait job now rfl rfl)⟩
  · cases hperform
    exact ⟨h, rfl, awaitReceipt_own hframe _⟩
  · cases hperform
    refine ⟨hpending none, rfl, fun transactionId heq ↦ ?_⟩
    cases heq
    exact hframe
  · cases hperform
    exact ⟨hpending none, rfl, nextOwn_rejected _⟩
  · cases hperform

end Submission

/-! ## Votes -/

section Votes

variable {B D : Type} {H : Hashing B D} {cfg : ReferendumV2.Sealed B D} {opts : Options}
  {ballotIn : JsString → Option B} {w w' : VoteWorld B}

/-- The private state opens the ballot of a transaction on chain. -/
def Opens (H : Hashing B D) (cfg : ReferendumV2.Sealed B D) (ballotIn : JsString → Option B) (w : VoteWorld B)
    (privateState : Opening B) (transactionId : JsString) : Prop :=
  ∃ tx, w.chain transactionId = some tx ∧ ballotIn tx = some (commitment H cfg privateState)

/-- The private state that was stored when the calls resolved opens the ballot of their transaction, with the
choice that they have requested. -/
def Resolution.Honest (H : Hashing B D) (cfg : ReferendumV2.Sealed B D) (ballotIn : JsString → Option B)
    (w : VoteWorld B) (r : Resolution B) : Prop :=
  ∃ privateState, r.privateState = some privateState ∧ Opens H cfg ballotIn w privateState r.transactionId ∧
    ∀ caller ∈ r.callers, caller.choice = privateState.1

/-- The private state of a vote is stored. -/
def Stored (w : VoteWorld B) (vote : PendingVote) (privateState : Opening B) : Prop :=
  w.privateState = some privateState ∧ privateState.1 = vote.request.choice

/-- What is true where a vote waits. -/
def VoteFrameKept (H : Hashing B D) (cfg : ReferendumV2.Sealed B D) (ballotIn : JsString → Option B)
    (w : VoteWorld B) (vote : PendingVote) : VoteFrame B → Prop
  | .checks => True
  | .join privateState => privateState.1 = vote.request.choice
  | .prove => ∃ privateState, Stored w vote privateState
  | .submitTx => ∃ privateState, Stored w vote privateState ∧ ∃ call frame,
      w.submission.running = some (call, frame) ∧ FrameOwn w.chain w.submission call frame ∧
        ballotIn call.own.tx = some (commitment H cfg privateState)
  | .watchForTxData transactionId => ∃ privateState, Stored w vote privateState ∧
      Opens H cfg ballotIn w privateState transactionId

/-- What every run keeps. -/
structure Kept (H : Hashing B D) (cfg : ReferendumV2.Sealed B D) (ballotIn : JsString → Option B)
    (w : VoteWorld B) : Prop where
  tidy : RelayTidy w.submission
  receipts : TrueReceipts w.chain w.submission
  frame : ∀ vote frame, w.pendingVote = some (vote, frame) → VoteFrameKept H cfg ballotIn w vote frame
  callers : ∀ vote frame, w.pendingVote = some (vote, frame) →
    ∀ caller ∈ vote.callers, caller.choice = vote.request.choice
  resolved : ∀ r ∈ w.resolved, r.Honest H cfg ballotIn w

/-- No call is answered with a receipt of an action that an earlier call has recorded. -/
def RecoversNone (e : VoteWorld B × VoteEvent B) : Prop :=
  ∀ call wait job now, e.1.submission.running = some (call, .getReceipt wait job) →
    e.2 = .answer (.succeeds now) → call.submitted = false →
    ∀ found ∈ e.1.submission.jobs wait.initial.actionId, ∀ receipt ∈ found.state.receipt,
      matchesJob wait job receipt = false

theorem voteStepOption_of_voteStep [DecidableEq B] {e : VoteEvent B} (h : voteStep H cfg opts ballotIn w e = .ok w') :
    voteStepOption H cfg opts ballotIn w e = some w' := by
  unfold voteStep at h
  split at h
  · next w₁ hw₁ =>
    obtain rfl := Except.ok.inj h
    exact hw₁
  · cases h

theorem step_of_stepOption {s s' : World} {e : Event} (h : stepOption opts s e = some s') :
    step opts s e = .ok s' := by
  unfold step
  rw [h]

/-- The relay by itself keeps its receipts true. -/
theorem beside_of_relayEvent (h : Kept H cfg ballotIn w) {e : Event} {s : World} (hevent : RelayEvent w e)
    (hsome : stepOption opts w.submission e = some s) : Beside w.submission s ∧ TrueReceipts w.chain s := by
  have hbeside : Beside w.submission s := by
    cases effect_of_step h.tidy (step_of_stepOption hsome) with
    | called own hrunning hunused => cases hevent
    | answered reply call frame w₁ next hrunning hperform => cases hevent
    | reloaded kept => cases hevent
    | beside e s hbeside => exact hbeside
  refine ⟨hbeside, ?_⟩
  -- A job that has changed has the state of the event.
  have hupdate : ∀ {id : JsString} {job : RelayJob},
      (∀ receipt ∈ job.state.receipt, w.chain receipt.transactionId = some job.request.tx) →
      TrueReceipts w.chain (w.submission.setJob id job) := by
    intro id job hjob actionId found hfound
    simp only [World.setJob] at hfound
    by_cases hsame : actionId = id
    · subst hsame
      rw [Function.update_self] at hfound
      obtain rfl := Option.some.inj hfound
      exact hjob
    · rw [Function.update_of_ne hsame] at hfound
      exact h.receipts actionId found hfound
  cases e with
  | submitTx own => cases hevent
  | answer reply => cases hevent
  | reload kept => cases hevent
  | arrives actionId state =>
    simp only [stepOption] at hsome
    split at hsome
    · next request hfound =>
      obtain rfl := Option.some.inj hsome
      exact hupdate (hevent request hfound)
    · cases hsome
  | drops actionId =>
    obtain rfl := Option.some.inj hsome
    exact h.receipts
  | progress actionId state =>
    simp only [stepOption] at hsome
    split at hsome
    · next job hjob =>
      split at hsome
      · obtain rfl := Option.some.inj hsome
        exact hupdate (hevent job hjob)
      · cases hsome
    · cases hsome
  | purge actionId =>
    obtain rfl := Option.some.inj hsome
    intro id job hjob
    simp only at hjob
    by_cases hsame : id = actionId
    · subst hsame
      rw [Function.update_self] at hjob
      cases hjob
    · rw [Function.update_of_ne hsame] at hjob
      exact h.receipts id job hjob

/-- A step that leaves the submission, the chain and the resolved votes alone. -/
theorem Kept.votes (h : Kept H cfg ballotIn w) {pendingVote : Option (PendingVote × VoteFrame B)}
    {privateState : Option (Opening B)} {pendingStore : JsString → Option PendingActionRecord}
    (hframe : ∀ vote frame, pendingVote = some (vote, frame) →
      VoteFrameKept H cfg ballotIn { w with pendingVote, privateState, pendingStore } vote frame ∧
        ∀ caller ∈ vote.callers, caller.choice = vote.request.choice) :
    Kept H cfg ballotIn { w with pendingVote, privateState, pendingStore } where
  tidy := h.tidy
  receipts := h.receipts
  frame vote frame hvote := (hframe vote frame hvote).1
  callers vote frame hvote := (hframe vote frame hvote).2
  resolved := h.resolved

theorem kept_castVote (h : Kept H cfg ballotIn w) (request : CastVoteRequest) :
    Kept H cfg ballotIn (castVote w request) := by
  unfold castVote
  split
  · next vote frame hvote =>
    split
    · next hsame =>
      refine h.votes fun vote' frame' heq ↦ ?_
      cases heq
      refine ⟨?_, fun caller hmem ↦ ?_⟩
      · have hkept := h.frame vote frame hvote
        cases frame <;> exact hkept
      · rcases List.mem_append.mp hmem with hold | hnew
        · exact h.callers vote frame hvote caller hold
        · rw [List.mem_singleton.mp hnew, ← hsame]
    · exact h
  · refine h.votes fun vote' frame' heq ↦ ?_
    cases heq
    refine ⟨trivial, fun caller hmem ↦ ?_⟩
    rw [List.mem_singleton.mp hmem]

/-- An awaited call of the submission is answered. -/
theorem kept_answer (h : Kept H cfg ballotIn w) {reply : Reply} (hrecovers : RecoversNone (w, .answer reply))
    {vote : PendingVote} (hvote : w.pendingVote = some (vote, .submitTx)) {opts : Options} {s : World}
    (hsome : stepOption opts w.submission (.answer reply) = some s) :
    Kept H cfg ballotIn (w.submitted vote s) := by
  obtain ⟨privateState, hstored, call, frame, hrunning, hframe, hballot⟩ := h.frame vote _ hvote
  simp only [stepOption, hrunning] at hsome
  obtain ⟨⟨s₁, next⟩, hperform, rfl⟩ := Option.map_eq_some_iff.mp hsome
  obtain ⟨htidy, hjobs, hnext⟩ := perform_own h.tidy h.receipts hframe
    (fun wait job now hget hreply hnot ↦ hrecovers call wait job now (hget ▸ hrunning) (hreply ▸ rfl) hnot)
    hperform
  have hreceipts : TrueReceipts w.chain s₁ := by
    unfold TrueReceipts
    rw [hjobs]
    exact h.receipts
  have hcallers := h.callers vote _ hvote
  cases next with
  | goes frame' =>
    refine ⟨⟨htidy.used, htidy.arrived, htidy.jobId, htidy.died⟩, hreceipts, ?_, ?_, h.resolved⟩
    · intro vote' frame'' heq
      cases heq
      refine ⟨privateState, hstored, call.after frame', frame', rfl, ?_, ?_⟩
      · cases frame' <;> exact hnext
      · cases frame' <;> exact hballot
    · intro vote' frame'' heq
      cases heq
      exact hcallers
  | ends outcome =>
    refine ⟨⟨htidy.used, htidy.arrived, htidy.jobId, htidy.died⟩, hreceipts, ?_, ?_, h.resolved⟩
    · intro vote' frame'' heq
      simp only [VoteWorld.submitted, World.continue, List.getLast?_concat] at heq
      cases outcome with
      | resolved transactionId =>
        cases heq
        exact ⟨privateState, hstored, call.own.tx, hnext transactionId rfl, hballot⟩
      | rejected reason => cases heq
    · intro vote' frame'' heq
      simp only [VoteWorld.submitted, World.continue, List.getLast?_concat] at heq
      cases outcome with
      | resolved transactionId =>
        cases heq
        exact hcallers
      | rejected reason => cases heq

theorem Opens.grows {privateState : Opening B} {transactionId : JsString} {chain : JsString → Option JsString}
    (h : Opens H cfg ballotIn w privateState transactionId)
    (hgrows : ∀ id tx, w.chain id = some tx → chain id = some tx) :
    Opens H cfg ballotIn { w with chain } privateState transactionId := by
  obtain ⟨tx, hchain, hballot⟩ := h
  exact ⟨tx, hgrows transactionId tx hchain, hballot⟩

/-- The chain has a new transaction. -/
theorem Kept.grows (h : Kept H cfg ballotIn w) {chain : JsString → Option JsString}
    (hgrows : ∀ id tx, w.chain id = some tx → chain id = some tx) : Kept H cfg ballotIn { w with chain } where
  tidy := h.tidy
  receipts actionId job hjob receipt hreceipt := hgrows _ _ (h.receipts actionId job hjob receipt hreceipt)
  frame vote frame hvote := by
    have hkept := h.frame vote frame hvote
    cases frame with
    | checks => trivial
    | join privateState => exact hkept
    | prove => exact hkept
    | submitTx =>
      obtain ⟨privateState, hstored, call, frame, hrunning, hframe, hballot⟩ := hkept
      exact ⟨privateState, hstored, call, frame, hrunning, hframe.grows hgrows, hballot⟩
    | watchForTxData transactionId =>
      obtain ⟨privateState, hstored, hopens⟩ := hkept
      exact ⟨privateState, hstored, hopens.grows hgrows⟩
  callers := h.callers
  resolved r hr := by
    obtain ⟨privateState, hstored, hopens, hcallers⟩ := h.resolved r hr
    exact ⟨privateState, hstored, hopens.grows hgrows, hcallers⟩

/-- The own checks of a vote have passed. -/
theorem kept_checked [DecidableEq B] (h : Kept H cfg ballotIn w) {voteSalt : B} 
    (hsome : voteStepOption H cfg opts ballotIn w (.checked voteSalt) = some w') : Kept H cfg ballotIn w' := by
  simp only [voteStepOption] at hsome
  split at hsome
  · next vote hvote =>
    obtain rfl := Option.some.inj hsome
    refine h.votes fun vote' frame heq ↦ ?_
    cases heq
    exact ⟨rfl, h.callers vote _ hvote⟩
  · cases hsome

/-- The join of a vote is answered. -/
theorem kept_joined [DecidableEq B] (h : Kept H cfg ballotIn w) {rejects : Bool} 
    (hsome : voteStepOption H cfg opts ballotIn w (.joined rejects) = some w') : Kept H cfg ballotIn w' := by
  simp only [voteStepOption] at hsome
  split at hsome
  · next vote privateState hvote =>
    obtain rfl := Option.some.inj hsome
    refine h.votes fun vote' frame heq ↦ ?_
    cases rejects with
    | true => cases heq
    | false =>
      cases heq
      exact ⟨⟨privateState, rfl, h.frame vote _ hvote⟩, h.callers vote _ hvote⟩
  · cases hsome

/-- The proof of a vote begins its submission. -/
theorem kept_proved [DecidableEq B] (h : Kept H cfg ballotIn w) {own : Own} 
    (hsome : voteStepOption H cfg opts ballotIn w (.proved own) = some w') : Kept H cfg ballotIn w' := by
  simp only [voteStepOption] at hsome
  split at hsome
  · next vote privateState hvote hprivate =>
    split at hsome
    · next hballot =>
      obtain ⟨s, hbegun, rfl⟩ := Option.map_eq_some_iff.mp hsome
      simp only [stepOption] at hbegun
      split at hbegun
      · next hfree =>
        obtain rfl := Option.some.inj hbegun
        obtain ⟨state, hstored, hchoice⟩ := h.frame vote _ hvote
        obtain rfl := Option.some.inj (hprivate.symm.trans hstored)
        have hfresh : Fresh w.submission own.actionId := h.tidy.fresh hfree.2
        have htidy := h.tidy.called own.actionId none
        refine ⟨⟨htidy.used, htidy.arrived, htidy.jobId, htidy.died⟩, h.receipts, ?_, ?_, h.resolved⟩
        · intro vote' frame heq
          cases heq
          exact ⟨privateState, ⟨hstored, hchoice⟩, _, _, rfl, ⟨⟨rfl, rfl⟩, hfresh, List.mem_cons_self⟩, hballot⟩
        · intro vote' frame heq
          cases heq
          exact h.callers vote _ hvote
      · cases hbegun
    · cases hsome
  · cases hsome

/-- The relay goes on beside the submission. -/
theorem kept_relay [DecidableEq B] (h : Kept H cfg ballotIn w) {event : Event} 
    (hsome : voteStepOption H cfg opts ballotIn w (.relay event) = some w') : Kept H cfg ballotIn w' := by
  simp only [voteStepOption] at hsome
  split at hsome
  · next hevent =>
    obtain ⟨s, hstep, rfl⟩ := Option.map_eq_some_iff.mp hsome
    obtain ⟨hbeside, hreceipts⟩ := beside_of_relayEvent h hevent hstep
    refine ⟨hbeside.tidy h.tidy, hreceipts, fun vote frame hvote ↦ ?_, h.callers, h.resolved⟩
    have hkept := h.frame vote frame hvote
    cases frame with
    | submitTx =>
      obtain ⟨privateState, hstored, call, frame, hrunning, hframe, hballot⟩ := hkept
      exact ⟨privateState, hstored, call, frame, hbeside.running.trans hrunning, hframe.beside hbeside, hballot⟩
    | _ => exact hkept
  · cases hsome

/-- A transaction of the relay is included. -/
theorem kept_included [DecidableEq B] (h : Kept H cfg ballotIn w) {transactionId actionId : JsString} 
    (hsome : voteStepOption H cfg opts ballotIn w (.included transactionId actionId) = some w') : Kept H cfg ballotIn w' := by
  simp only [voteStepOption] at hsome
  split at hsome
  · next job hnone hjob =>
    obtain rfl := Option.some.inj hsome
    refine h.grows fun id tx hid ↦ ?_
    have hne : id ≠ transactionId := by
      rintro rfl
      cases hnone.symm.trans hid
    exact (Function.update_of_ne hne _ _).trans hid
  · cases hsome

/-- A vote is resolved. -/
theorem kept_watched [DecidableEq B] (h : Kept H cfg ballotIn w)
    (hsome : voteStepOption H cfg opts ballotIn w .watched = some w') : Kept H cfg ballotIn w' := by
  simp only [voteStepOption] at hsome
  split at hsome
  · next vote transactionId hvote =>
    split at hsome
    · obtain rfl := Option.some.inj hsome
      refine ⟨h.tidy, h.receipts, fun vote' frame heq ↦ (by cases heq), fun vote' frame heq ↦ (by cases heq), ?_⟩
      intro r hr
      rcases List.mem_append.mp hr with hold | hnew
      · exact h.resolved r hold
      · obtain rfl := List.mem_singleton.mp hnew
        obtain ⟨privateState, ⟨hstored, hchoice⟩, hopens⟩ := h.frame vote _ hvote
        refine ⟨privateState, hstored, hopens, fun caller hcaller ↦ ?_⟩
        exact (h.callers vote _ hvote caller hcaller).trans hchoice.symm
    · cases hsome
  · cases hsome

/-- A vote fails. -/
theorem kept_fails [DecidableEq B] (h : Kept H cfg ballotIn w)
    (hsome : voteStepOption H cfg opts ballotIn w .fails = some w') : Kept H cfg ballotIn w' := by
  simp only [voteStepOption] at hsome
  split at hsome
  · cases hsome
  · obtain rfl := Option.some.inj hsome
    exact h.votes fun vote frame heq ↦ by cases heq
  · cases hsome

/-- The page is loaded again. -/
theorem kept_reload [DecidableEq B] (h : Kept H cfg ballotIn w) {keepsRecords keepsState : Bool} 
    (hsome : voteStepOption H cfg opts ballotIn w (.reload keepsRecords keepsState) = some w') : Kept H cfg ballotIn w' := by
  obtain rfl := Option.some.inj hsome
  refine ⟨⟨h.tidy.used, h.tidy.arrived, h.tidy.jobId, h.tidy.died⟩, h.receipts, ?_, ?_, h.resolved⟩
  · exact fun vote frame heq ↦ by cases heq
  · exact fun vote frame heq ↦ by cases heq

theorem kept_step [DecidableEq B] (h : Kept H cfg ballotIn w) {e : VoteEvent B} (hrecovers : RecoversNone (w, e))
    (hok : voteStep H cfg opts ballotIn w e = .ok w') : Kept H cfg ballotIn w' := by
  have hsome := voteStepOption_of_voteStep hok
  cases e with
  | castVote request =>
    obtain rfl := Option.some.inj hsome
    exact kept_castVote h request
  | checked voteSalt => exact kept_checked h hsome
  | joined rejects => exact kept_joined h hsome
  | proved own => exact kept_proved h hsome
  | answer reply =>
    simp only [voteStepOption] at hsome
    split at hsome
    · next vote hvote =>
      obtain ⟨s, hanswered, rfl⟩ := Option.map_eq_some_iff.mp hsome
      exact kept_answer h hrecovers hvote hanswered
    · cases hsome
  | relay event => exact kept_relay h hsome
  | included transactionId actionId => exact kept_included h hsome
  | watched => exact kept_watched h hsome
  | fails => exact kept_fails h hsome
  | reload keepsRecords keepsState => exact kept_reload h hsome

theorem kept_start : Kept H cfg ballotIn (voteStart B) where
  tidy := relayTidy_start
  receipts actionId job hjob := by cases hjob
  frame vote frame heq := by cases heq
  callers vote frame heq := by cases heq
  resolved r hr := by cases hr

/-- In every run in which no call is answered with a receipt of an earlier one, the private state that is stored
when a vote resolves opens the ballot of its transaction with the requested choice. -/
theorem stored_opening_opens [DecidableEq B] (H : Hashing B D) (cfg : ReferendumV2.Sealed B D) (opts : Options)
    (ballotIn : JsString → Option B) (es : List (VoteEvent B))
    (hrecovers : ∀ e ∈ accepted (voteStep H cfg opts ballotIn) (voteStart B) es, RecoversNone e) :
    ∀ r ∈ (run (voteStep H cfg opts ballotIn) (voteStart B) es).resolved,
      r.Honest H cfg ballotIn (run (voteStep H cfg opts ballotIn) (voteStart B) es) :=
  (run_history (f := voteStep H cfg opts ballotIn) (I := fun _ w ↦ Kept H cfg ballotIn w) (P := RecoversNone)
    (fun _ _ _ _ hkept hrecover hok ↦ kept_step hkept hrecover hok) kept_start es hrecovers).resolved

end Votes

/-! ## Votes on a sample -/

def voteOptions : Options where
  networkId := js "preview"
  submissionTimeoutMs := 5
  scope := ⟨js "", js "contract", js "castVote", .vote⟩
  sha256 := id

/-- The openings of two votes. -/
def firstOpening : Opening Term := (.yes, .text "first salt")

def secondOpening : Opening Term := (.no, .text "second salt")

/-- The transactions of the two votes. -/
def voteBallotIn (tx : JsString) : Option Term :=
  if tx = js "first" then some (commitment symbolic ReferendumV2.sampleSealed firstOpening)
  else if tx = js "second" then some (commitment symbolic ReferendumV2.sampleSealed secondOpening)
  else none

def pendingJob : JobState := ⟨.pending, none, none, none, no_receipt⟩

def voteReceipt (transactionId : JsString) : CanonicalReceipt where
  action := .vote
  network := js "preview"
  transactionId := transactionId
  transactionHash := js "hash"
  contractAddress := js "contract"
  circuit := js "castVote"
  blockHeight := 0
  blockHash := js "block"
  blockTimestamp := js "time"
  explorerUrl := none

def confirmed (transactionId : JsString) : JobState :=
  ⟨.confirmed, some transactionId, some (voteReceipt transactionId), none, fun _ ↦ rfl⟩

/-- A vote until its submission begins. -/
def votes (opening : Opening Term) (tx : String) : List (VoteEvent Term) :=
  [.castVote ⟨opening.1, js "handle"⟩, .checked opening.2, .joined false, .proved ⟨js tx, js tx, js "key"⟩]

/-- The first vote is submitted, but its confirmation takes too long. -/
def lateVote : List (VoteEvent Term) :=
  votes firstOpening "first" ++
    [.answer (.succeeds 0), .answer (.issued (js "capability")), .answer (.succeeds 0),
      .relay (.arrives (js "first") pendingJob), .answer (.succeeds 0), .answer (.succeeds 9)]

/-- The transaction of the first vote is included and confirmed. -/
def confirms : List (VoteEvent Term) :=
  [.included (js "id") (js "first"), .relay (.progress (js "first") (confirmed (js "id")))]

/-- Another choice is cast while the first vote is undecided. -/
def retriedVote : List (VoteEvent Term) :=
  lateVote ++ votes secondOpening "second" ++ [.answer (.succeeds 0), .answer (.succeeds 0)] ++ confirms ++
    [.answer (.succeeds 0), .answer (.succeeds 0), .watched]

/-- The first vote is confirmed in time. -/
def confirmedVote : List (VoteEvent Term) :=
  lateVote.take 9 ++ confirms ++ [.answer (.succeeds 0), .answer (.succeeds 0), .watched]

def voteRun (es : List (VoteEvent Term)) : VoteWorld Term :=
  run (voteStep symbolic ReferendumV2.sampleSealed voteOptions voteBallotIn) (voteStart Term) es

def voteHistory (es : List (VoteEvent Term)) : List (VoteWorld Term × VoteEvent Term) :=
  accepted (voteStep symbolic ReferendumV2.sampleSealed voteOptions voteBallotIn) (voteStart Term) es

/-- A call that asks for a receipt asks for the one of its own action. -/
def asksOwn (e : VoteWorld Term × VoteEvent Term) : Bool :=
  match e.1.submission.running with
  | some (call, .getReceipt _ _) => call.submitted
  | _ => true

theorem recoversNone_of_asksOwn {e : VoteWorld Term × VoteEvent Term} (h : asksOwn e = true) :
    RecoversNone e := by
  intro call wait job now hrunning _ hnot
  simp only [asksOwn, hrunning] at h
  cases h.symm.trans hnot

theorem stored_opening_opens_sample :
    (∀ r ∈ (voteRun confirmedVote).resolved,
      r.Honest symbolic ReferendumV2.sampleSealed voteBallotIn (voteRun confirmedVote)) ∧
      (voteRun confirmedVote).resolved.map (fun r ↦ (r.transactionId, r.privateState)) =
        [(js "id", some firstOpening)] := by
  have howns : ∀ e ∈ voteHistory confirmedVote, asksOwn e = true := by decide +kernel
  refine ⟨?_, by decide +kernel⟩
  exact stored_opening_opens symbolic ReferendumV2.sampleSealed voteOptions voteBallotIn confirmedVote
    fun e he ↦ recoversNone_of_asksOwn (howns e he)

/-- The second vote resolves with the transaction of the first, whose opening is no longer stored. -/
theorem stored_opening_lost :
    ¬∀ r ∈ (voteRun retriedVote).resolved,
      r.Honest symbolic ReferendumV2.sampleSealed voteBallotIn (voteRun retriedVote) := by
  have hresolved : ∃ r ∈ (voteRun retriedVote).resolved, r.transactionId = js "id" ∧
      r.privateState = some secondOpening := by
    decide +kernel
  have hchain : (voteRun retriedVote).chain (js "id") = some (js "first") := by decide +kernel
  have hballot : voteBallotIn (js "first") ≠ some (commitment symbolic ReferendumV2.sampleSealed secondOpening) := by
    decide
  intro h
  obtain ⟨r, hr, hid, hstored⟩ := hresolved
  obtain ⟨privateState, hheld, ⟨tx, htx, hopens⟩, _⟩ := h r hr
  obtain rfl := Option.some.inj (hstored.symm.trans hheld)
  rw [hid, hchain] at htx
  obtain rfl := Option.some.inj htx
  exact hballot hopens

end MidnightReferendum.Passport.Walletless
