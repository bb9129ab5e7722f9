import MidnightReferendum.Passport.SessionAdapter

/-!
# Disconnecting ends the session

After a disconnect there is no session and no grant before a later `connect` has resolved, and the capabilities of a
session were approved for it. An answer that is written although its session has ended meanwhile breaks this, and
nothing else does.
-/

namespace MidnightReferendum.SessionAdapter

open Js Execution

/-- The session or the grant is that of the last `connect` that was started after the last disconnect, and its
capabilities were approved for this session. -/
def OutcomeOk (approved : ℕ → List PassportCapability) : Outcome → Prop
  | .session (some session) owner last => ∃ d, owner = some d ∧ last = some d ∧ session.capabilities ⊆ approved d
  | .granted grant owner last => ∃ d, owner = some d ∧ last = some d ∧ grant.capability ∈ approved d
  | .session none _ _ | .done | .rejected _ => True

/-- What `getSession` would answer, and what all calls have answered. -/
structure Ended (w : World) : Prop where
  session : OutcomeOk w.approved (.session w.session w.owner w.last)
  outcomes : ∀ c outcome, w.outcomes c = some outcome → OutcomeOk w.approved outcome

/-- The answer of the bridge comes before a disconnect, and before another session, if it is accepted. -/
def Calm (w : World) : Event → Prop
  | .answer c raw _ =>
    match w.calls c with
    | some (.connecting request since) =>
      assertBridgeNetwork raw.network request.network = .ok () → since = w.disconnects
    | some (.requesting _ current owner) =>
      assertBridgeNetwork raw.network current.network = .ok () → owner = w.last
    | none => True
  | _ => True

/-! ## The invariant -/

structure Inv (w : World) : Prop where
  ended : Ended w
  frames : ∀ c capability current owner, w.calls c = some (.requesting capability current owner) →
    ∃ d, owner = some d ∧ current.capabilities ⊆ w.approved d
  waiting : ∀ c, w.calls c ≠ none → w.outcomes c = none
  last : ∀ c, w.last = some c → w.outcomes c ≠ none

theorem inv_init : Inv init where
  ended := ⟨trivial, fun c outcome h ↦ by cases h⟩
  frames c capability current owner h := by cases h
  waiting c h := rfl
  last c h := by cases h

theorem OutcomeOk.mono {a b : ℕ → List PassportCapability} (hab : ∀ d, a d ⊆ b d) {outcome : Outcome}
    (h : OutcomeOk a outcome) : OutcomeOk b outcome := by
  match outcome with
  | .session (some session) owner last =>
    obtain ⟨d, howner, hlast, hcapabilities⟩ := h
    exact ⟨d, howner, hlast, List.Subset.trans hcapabilities (hab d)⟩
  | .granted grant owner last =>
    obtain ⟨d, howner, hlast, hcapability⟩ := h
    exact ⟨d, howner, hlast, hab d hcapability⟩
  | .session none _ _ | .done | .rejected _ => trivial

section Rules

variable {w : World} {c : ℕ}

/-- A call that waits is not the last `connect`. -/
theorem Inv.last_ne (h : Inv w) {frame : Frame} (hcall : w.calls c = some frame) : w.last ≠ some c := by
  intro hlast
  exact h.last c hlast (h.waiting c (by rw [hcall]; exact Option.some_ne_none frame))

theorem subset_approve (owner : Option ℕ) (capabilities : List PassportCapability) (d : ℕ) :
    w.approved d ⊆ (w.approve owner capabilities).approved d := by
  rw [World.approve]
  dsimp only
  split
  · exact List.subset_append_left _ _
  · exact List.Subset.refl _

theorem approve_self (d : ℕ) (capabilities : List PassportCapability) :
    (w.approve (some d) capabilities).approved d = w.approved d ++ capabilities := if_pos rfl

theorem Inv.approve (h : Inv w) (owner : Option ℕ) (capabilities : List PassportCapability) :
    Inv (w.approve owner capabilities) where
  ended := ⟨h.ended.session.mono (subset_approve owner capabilities),
    fun c outcome houtcome ↦ (h.ended.outcomes c outcome houtcome).mono (subset_approve owner capabilities)⟩
  frames c capability current owner' hcall := by
    obtain ⟨d, howner, hcapabilities⟩ := h.frames c capability current owner' hcall
    exact ⟨d, howner, List.Subset.trans hcapabilities (subset_approve owner capabilities d)⟩
  waiting := h.waiting
  last := h.last

theorem Inv.wait (h : Inv w) (hnew : w.outcomes c = none) {frame : Frame} {fields : List PassportProfileBridgeField}
    {network : PassportNetwork}
    (hframe : ∀ capability current owner, frame = .requesting capability current owner →
      ∃ d, owner = some d ∧ current.capabilities ⊆ w.approved d) : Inv (w.wait c frame fields network) where
  ended := ⟨h.ended.session, h.ended.outcomes⟩
  frames c' capability current owner hcall := by
    obtain ⟨_, heq⟩ | ⟨_, hold⟩ := Tables.update_some_eq_some hcall
    · exact hframe capability current owner heq.symm
    · exact h.frames c' capability current owner hold
  waiting c' hcall := by
    obtain ⟨frame', hsome⟩ := Option.ne_none_iff_exists'.mp hcall
    obtain ⟨rfl, _⟩ | ⟨_, hold⟩ := Tables.update_some_eq_some hsome
    · exact hnew
    · exact h.waiting c' (by rw [hold]; exact Option.some_ne_none frame')
  last := h.last

theorem Inv.resolve (h : Inv w) {outcome : Outcome} (houtcome : OutcomeOk w.approved outcome) :
    Inv (w.resolve c outcome) where
  ended := by
    refine ⟨h.ended.session, fun c' outcome' hold ↦ ?_⟩
    obtain ⟨_, rfl⟩ | ⟨_, hold⟩ := Tables.update_some_eq_some hold
    · exact houtcome
    · exact h.ended.outcomes c' outcome' hold
  frames c' capability current owner hcall :=
    h.frames c' capability current owner (Tables.update_none_eq_some hcall).2
  waiting c' hcall := by
    obtain ⟨frame, hsome⟩ := Option.ne_none_iff_exists'.mp hcall
    obtain ⟨hne, hold⟩ := Tables.update_none_eq_some hsome
    exact (Function.update_of_ne hne ..).trans (h.waiting c' (by rw [hold]; exact Option.some_ne_none frame))
  last c' hlast := by
    by_cases hc : c' = c
    · subst hc
      exact (Function.update_self ..).trans_ne (Option.some_ne_none outcome)
    · exact (Function.update_of_ne hc ..).trans_ne (h.last c' hlast)

/-- The call that is resolved writes a session. -/
theorem Inv.finish (h : Inv w) {session : PassportSession} {owner owner' last : Option ℕ} {outcome : Outcome}
    {capabilities : List PassportCapability}
    (hsession : OutcomeOk (w.approve owner capabilities).approved (.session (some session) owner' last))
    (houtcome : OutcomeOk (w.approve owner capabilities).approved outcome) (hlast : last = w.last ∨ last = some c) :
    Inv (({ (w.approve owner capabilities).setSession session owner' with last := last }).resolve c outcome) := by
  have hinv := (h.approve owner capabilities).resolve (c := c) houtcome
  refine ⟨⟨hsession, hinv.ended.outcomes⟩, hinv.frames, hinv.waiting, ?_⟩
  rintro d rfl
  obtain hlast | hlast := hlast
  · exact hinv.last d hlast.symm
  · obtain rfl := Option.some.inj hlast
    exact (Function.update_self ..).trans_ne (Option.some_ne_none outcome)

end Rules

/-! ## Steps and runs -/

section Steps

variable {o : Options} {w w' : World} {c : ℕ}

theorem accepted_capability {session : Option PassportSession} {capability : PassportCapability}
    {current : PassportSession} {fields : List PassportProfileBridgeField}
    (h : o.checkCapability session capability = .ok (current, fields)) : session = some current := by
  unfold Options.checkCapability at h
  split at h
  · cases h
  · next held =>
    split_ifs at h
    cases h
    rfl

theorem subset_escalated {current : PassportSession} {capability : PassportCapability}
    {raw : PassportProfileBridgeSession} {approved : List PassportCapability}
    (h : current.capabilities ⊆ approved) :
    (o.escalated current capability raw).capabilities ⊆ approved ++ [capability] := by
  unfold Options.escalated
  dsimp only
  split
  · exact List.Subset.trans h (List.subset_append_left _ _)
  · exact List.append_subset.mpr
      ⟨List.Subset.trans h (List.subset_append_left _ _), List.subset_append_right _ _⟩

theorem Inv.finishConnect (h : Inv w) {request : PassportSessionRequest} {since : ℕ}
    {raw : PassportProfileBridgeSession}
    (hcalm : assertBridgeNetwork raw.network request.network = .ok () → since = w.disconnects) :
    Inv (finishConnect o w c request since raw) := by
  unfold SessionAdapter.finishConnect
  split
  · exact h.resolve trivial
  · next _ hnetwork =>
    have hsession : OutcomeOk (w.approve (some c) request.requestedCapabilities).approved
        (.session (some (o.connected request raw)) (some c) (some c)) := by
      refine ⟨c, rfl, rfl, ?_⟩
      rw [approve_self]
      exact List.subset_append_right _ _
    dsimp only
    rw [if_pos (hcalm hnetwork)]
    exact h.finish hsession hsession (Or.inr rfl)

theorem Inv.finishCapability (h : Inv w) {capability : PassportCapability} {current : PassportSession}
    {owner : Option ℕ} {raw : PassportProfileBridgeSession} {now : ℤ}
    (hcall : w.calls c = some (.requesting capability current owner))
    (hcalm : assertBridgeNetwork raw.network current.network = .ok () → owner = w.last) :
    Inv (finishCapability o w c capability current owner raw now) := by
  unfold SessionAdapter.finishCapability
  split
  · exact h.resolve trivial
  · next _ hnetwork =>
    obtain ⟨d, rfl, hcapabilities⟩ := h.frames c capability current owner hcall
    have hlast := hcalm hnetwork
    have hsession : OutcomeOk (w.approve (some d) [capability]).approved
        (.session (some (o.escalated current capability raw)) (some d) w.last) := by
      refine ⟨d, rfl, hlast.symm, ?_⟩
      rw [approve_self]
      exact subset_escalated hcapabilities
    refine h.finish hsession ?_ (Or.inl rfl)
    cases toISOString now with
    | none => trivial
    | some grantedAt =>
      refine ⟨d, rfl, hlast.symm, ?_⟩
      rw [approve_self]
      exact List.mem_append_right _ (List.mem_singleton.mpr rfl)

/-- A `connect` that was started before the last disconnect is not the last one since. -/
theorem Inv.since_eq (h : Inv w) {request : PassportSessionRequest} {since : ℕ} {raw : PassportProfileBridgeSession}
    (hcall : w.calls c = some (.connecting request since))
    (hnetwork : assertBridgeNetwork raw.network request.network = .ok ())
    (hended : Ended (SessionAdapter.finishConnect o w c request since raw)) : since = w.disconnects := by
  by_contra hsince
  have hsession := hended.session
  rw [SessionAdapter.finishConnect, hnetwork] at hsession
  dsimp only at hsession
  rw [if_neg hsince] at hsession
  obtain ⟨d, howner, hlast, _⟩ := hsession
  obtain rfl : c = d := Option.some.inj howner
  exact h.last_ne hcall hlast

theorem owner_eq {capability : PassportCapability} {current : PassportSession} {owner : Option ℕ}
    {raw : PassportProfileBridgeSession} {now : ℤ}
    (hnetwork : assertBridgeNetwork raw.network current.network = .ok ())
    (hended : Ended (finishCapability o w c capability current owner raw now)) : owner = w.last := by
  have hsession := hended.session
  rw [finishCapability, hnetwork] at hsession
  obtain ⟨d, howner, hlast, _⟩ := hsession
  exact howner.trans hlast.symm

/-- A call is new if it neither waits nor has answered. -/
theorem outcomes_of_new (h : ¬(w.calls c ≠ none ∨ w.outcomes c ≠ none)) : w.outcomes c = none :=
  not_not.mp fun hne ↦ h (Or.inr hne)

theorem Inv.step {e : Event} (h : Inv w) (hcalm : Calm w e) (hstep : step o w e = .ok w') : Inv w' := by
  unfold SessionAdapter.step at hstep
  cases e with
  | connect c request =>
    dsimp only at hstep
    split_ifs at hstep with hnew
    split at hstep
    · cases hstep
      exact h.resolve trivial
    · cases hstep
      exact h.wait (outcomes_of_new hnew) fun capability current owner hframe ↦ by cases hframe
  | getSession c =>
    dsimp only at hstep
    split_ifs at hstep with hnew
    cases hstep
    exact h.resolve h.ended.session
  | requestCapability c capability =>
    dsimp only at hstep
    split_ifs at hstep with hnew
    split at hstep
    · cases hstep
      exact h.resolve trivial
    · next current fields hcheck =>
      cases hstep
      refine h.wait (outcomes_of_new hnew) fun capability' current' owner hframe ↦ ?_
      cases hframe
      have hsession := h.ended.session
      rw [accepted_capability hcheck] at hsession
      obtain ⟨d, howner, _, hcapabilities⟩ := hsession
      exact ⟨d, howner, hcapabilities⟩
  | disconnect c =>
    dsimp only at hstep
    split_ifs at hstep with hnew
    cases hstep
    have hinv : Inv { w with session := none, owner := none, last := none, disconnects := w.disconnects + 1 } :=
      ⟨⟨trivial, h.ended.outcomes⟩, h.frames, h.waiting, fun d hlast ↦ by cases hlast⟩
    exact hinv.resolve trivial
  | answer c raw now =>
    dsimp only at hstep
    split at hstep
    · cases hstep
    · next request since hcall =>
      cases hstep
      rw [Calm, hcall] at hcalm
      exact h.finishConnect hcalm
    · next capability current owner hcall =>
      cases hstep
      rw [Calm, hcall] at hcalm
      exact h.finishCapability hcall hcalm
  | reject c =>
    dsimp only at hstep
    cases hcall : w.calls c with
    | none =>
      rw [hcall] at hstep
      cases hstep
    | some frame =>
      rw [hcall] at hstep
      cases hstep
      exact h.resolve trivial

theorem Inv.calm {e : Event} (h : Inv w) (hstep : SessionAdapter.step o w e = .ok w') (hended : Ended w') : Calm w e := by
  cases e with
  | answer c raw now =>
    rw [Calm]
    unfold SessionAdapter.step at hstep
    dsimp only at hstep
    split at hstep
    · cases hstep
    · next request since hcall =>
      cases hstep
      rw [hcall]
      exact fun hnetwork ↦ h.since_eq hcall hnetwork hended
    · next capability current owner hcall =>
      cases hstep
      rw [hcall]
      exact fun hnetwork ↦ owner_eq hnetwork hended
  | _ => trivial

end Steps

/-- In each state of a run every session and every grant is that of the last `connect` since the last disconnect, and
approved for it, if and only if the bridge answers each `connect` before the next disconnect, and each request for a
capability while the session that it was made in is the last one. -/
theorem sessions_end_iff (o : Options) (events : List Event) :
    (∀ pre, pre <+: events → Ended (run (step o) init pre)) ↔
      ∀ e ∈ accepted (step o) init events, Calm e.1 e.2 :=
  prefixes_iff_accepted (P := fun e ↦ Calm e.1 e.2) (fun _ h ↦ h.ended)
    (fun _ _ _ h hcalm hstep ↦ h.step hcalm hstep) (fun _ _ _ h hstep hended ↦ h.calm hstep hended) inv_init events

def sampleRequest : PassportSessionRequest := ⟨js "https://cico.example", .preview, [.session]⟩

def sampleAnswer : PassportProfileBridgeSession := ⟨js "request", none, none, none, none⟩

/-- A `connect` is answered after the disconnect that follows it. -/
def lateConnect : List Event :=
  [.connect 0 sampleRequest, .disconnect 1, .answer 0 sampleAnswer 0, .getSession 2]

/-- A capability is approved after the session has ended. -/
def lateCapability : List Event :=
  [.connect 0 sampleRequest, .answer 0 sampleAnswer 0, .requestCapability 1 .session, .disconnect 2,
    .answer 1 sampleAnswer 0, .getSession 3]

/-- A session and a grant after the last disconnect, without any `connect` since. -/
theorem late_answers_restore_session :
    (run (step {}) init lateConnect).outcomes 2 =
        some (.session (some (Options.connected {} sampleRequest sampleAnswer)) (some 0) none) ∧
      ¬Ended (run (step {}) init lateConnect) ∧
        (run (step {}) init lateCapability).outcomes 1 =
          some (.granted ⟨.session, js "https://cico.example", js "1970-01-01T00:00:00.000Z"⟩ (some 0) none) ∧
          ((run (step {}) init lateCapability).session.map (·.capabilities)) = some [.session] ∧
            ¬Ended (run (step {}) init lateCapability) := by
  refine ⟨rfl, fun h ↦ ?_, rfl, rfl, fun h ↦ ?_⟩
  · obtain ⟨d, _, hlast, _⟩ := h.outcomes 2 _ rfl
    cases hlast
  · obtain ⟨d, _, hlast, _⟩ := h.outcomes 1 _ rfl
    cases hlast

end MidnightReferendum.SessionAdapter
