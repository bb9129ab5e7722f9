import MidnightReferendum.Cico.RarimoGateway

/-!
# What an issuance is authorized by

The gateway authorizes an issuance only by evidence of a proof: it has made a link for the request, the verificator has
called the user verified after that, and the proof has been read after that and not been deleted since. The proof is of
the user of the link, its signals are those of the request, and the issuance is for the enrollment and the holder to
which the request is bound. This holds whatever calls overlap.
-/

namespace MidnightReferendum.RarimoGateway

open Js Cico Checks Execution

variable (o : Options)

/-! ## What the log shows -/

/-- A proof has been read under a context, after a link and a verification, and has not been deleted since. -/
structure ProvenIn (log : List Entry) (context : VerificationContext) (body : Body) : Prop where
  order : ∃ before after, log = before ++ .proven context body :: after ∧
    [.created context, .verified context].Sublist before ∧ .deleted context.request.requestId ∉ after
  validated : validateGatewayRequest context.request = .ok ()

/-- The claims and the holder of an issuance are those that a proof authorizes. -/
structure Authorizes (context : VerificationContext) (body : Body) (request : IssuanceRequest) :
    Prop where
  provider : request.provider = .rarimo
  proof : ∃ proof evidence eventData, decodeProof body.json = .ok proof ∧ proof.userIdHash = context.userIdHash ∧
    ReadEvidence proof context.request (fingerprint o body) evidence ∧
    request.evidenceAuthorization = evidence.evidenceAuthorization ∧
    deriveRarimoIssuanceEventData o request = some eventData ∧
    lowerHex context.request.eventData = js "0x" ++ bytesToHex eventData ∧
    evidence.eventDataDecimal = decimal (hexNumber (bytesToHex eventData)) ∧
    o.policy.countryMapper.fromAlpha3 evidence.citizenshipAlpha3 = some request.claims.country
  issuerId : request.claims.issuerId = o.policy.issuerId
  ageClass : request.claims.ageClass = expectedAgeClass context.request
  assurance : request.claims.assurance = .documentNfc
  credentialEpoch : request.claims.credentialEpoch = o.policy.credentialEpoch

/-- A record of the gateway comes from a proof. -/
def Recorded (log : List Entry) (authorization : JsString) (record : IssuanceAuthorizationContext) : Prop :=
  ∃ body, ProvenIn log record.context body ∧ readEvidence o record.context body = .ok record.evidence ∧
    authorization = record.evidence.evidenceAuthorization

/-- What a call that waits has seen. -/
def FrameSound (log : List Entry) : Frame → Prop
  | .creating request => validateGatewayRequest request = .ok ()
  | .readingStatus _ | .deleting _ => True
  | .checkingStatus context => .created context ∈ log ∧ validateGatewayRequest context.request = .ok ()
  | .readingProof context =>
    [.created context, .verified context].Sublist log ∧ validateGatewayRequest context.request = .ok ()

structure Sound (w : World) : Prop where
  contexts : ∀ requestId context, w.gateway.contexts requestId = some context →
    .created context ∈ w.log ∧ validateGatewayRequest context.request = .ok ()
  records : ∀ authorization record, w.gateway.issuanceAuthorizations authorization = some record →
    Recorded o w.log authorization record
  frames : ∀ c frame, w.calls c = some frame → FrameSound w.log frame
  authorized : ∀ before request after, w.log = before ++ .authorized request :: after →
    ∃ context body, ProvenIn before context body ∧ Authorizes o context body request

variable {o}

/-! ## The log grows -/

theorem ProvenIn.grows {log entries : List Entry} {context : VerificationContext} {body : Body}
    (h : ProvenIn log context body) (hkept : .deleted context.request.requestId ∉ entries) :
    ProvenIn (log ++ entries) context body := by
  obtain ⟨before, after, rfl, hsublist, hdeleted⟩ := h.order
  refine ⟨⟨before, after ++ entries, by simp, hsublist, ?_⟩, h.validated⟩
  rw [List.mem_append]
  exact fun hmem ↦ hmem.elim hdeleted hkept

theorem Recorded.grows {log entries : List Entry} {authorization : JsString} {record : IssuanceAuthorizationContext}
    (h : Recorded o log authorization record) (hkept : .deleted record.context.request.requestId ∉ entries) :
    Recorded o (log ++ entries) authorization record := by
  obtain ⟨body, hproven, hread⟩ := h
  exact ⟨body, hproven.grows hkept, hread⟩

theorem FrameSound.grows {log : List Entry} {frame : Frame} (h : FrameSound log frame) (entries : List Entry) :
    FrameSound (log ++ entries) frame := by
  cases frame with
  | creating request => exact h
  | readingStatus requestId => trivial
  | deleting requestId => trivial
  | checkingStatus context => exact ⟨List.mem_append_left _ h.1, h.2⟩
  | readingProof context => exact ⟨h.1.trans (List.sublist_append_left _ _), h.2⟩

theorem authorized_grows {log entries : List Entry}
    (h : ∀ before request after, log = before ++ .authorized request :: after →
      ∃ context body, ProvenIn before context body ∧ Authorizes o context body request)
    (hentries : ∀ request, .authorized request ∉ entries) :
    ∀ before request after, log ++ entries = before ++ .authorized request :: after →
      ∃ context body, ProvenIn before context body ∧ Authorizes o context body request := by
  intro before request after hsplit
  obtain ⟨rest, _, hnew⟩ | ⟨rest, hlog, hrest⟩ := List.append_eq_append_iff.mp hsplit
  · -- The entry is one of the new ones.
    have hmem : .authorized request ∈ entries := by
      rw [hnew]
      exact List.mem_append_right _ List.mem_cons_self
    exact absurd hmem (hentries request)
  · cases rest with
    | nil =>
      have hmem : .authorized request ∈ entries := by
        rw [← List.nil_append entries, ← hrest]
        exact List.mem_cons_self
      exact absurd hmem (hentries request)
    | cons entry rest =>
      obtain ⟨rfl, _⟩ := List.cons.inj hrest
      exact h before request rest hlog

/-! ## The steps -/

theorem readEvidence_ok {context : VerificationContext} {body : Body} {evidence : RarimoVerifiedEvidence}
    (h : readEvidence o context body = .ok evidence) :
    ∃ proof, decodeProof body.json = .ok proof ∧ proof.userIdHash = context.userIdHash ∧
      ReadEvidence proof context.request (fingerprint o body) evidence := by
  rw [readEvidence] at h
  obtain ⟨proof, hproof, h⟩ := bind_eq_ok.mp h
  obtain ⟨huser, h⟩ := check_bind_eq_ok.mp h
  obtain ⟨_, h⟩ := check_bind_eq_ok.mp h
  exact ⟨proof, hproof, huser, evidenceFromProof_ok h⟩

theorem present_eq_some {value : Option JsString} {text : JsString} (h : present value = some text) :
    value = some text := by
  rw [present] at h
  split at h
  · exact h
  · cases h

/-- An issuance that the gateway authorizes is what the recorded proof authorizes. -/
theorem authorizes_of_validate {log : List Entry} {g : Gateway} {request : IssuanceRequest}
    {now : ℤ}
    (hrecords : ∀ authorization record, g.issuanceAuthorizations authorization = some record →
      Recorded o log authorization record)
    (h : validateCredentialIssuance o g request o.policy now = true) :
    ∃ context body, ProvenIn log context body ∧ Authorizes o context body request := by
  rw [validateCredentialIssuance] at h
  split at h
  · cases h
  next record hrecord =>
  obtain ⟨body, hproven, hread, hauthorization⟩ := hrecords _ record hrecord
  obtain ⟨proof, hproof, huser, hevidence⟩ := readEvidence_ok hread
  split at h
  · cases h
  next hprovider =>
  split at h
  · cases h
  next eventData heventData =>
  simp only [Bool.and_eq_true] at h
  obtain ⟨⟨⟨⟨⟨hbinds, hcountry⟩, _⟩, _⟩, hpolicy⟩, _⟩ := h
  split at hcountry
  · cases hcountry
  next country hpresent =>
  simp only [bindsEventData, Bool.and_eq_true, beq_iff_eq] at hbinds
  obtain ⟨⟨hhex, hdecimal⟩, hsame⟩ := hbinds
  simp only [meetsPolicy, Bool.and_eq_true, beq_iff_eq] at hpolicy
  obtain ⟨⟨⟨hissuerId, hageClass⟩, hassurance⟩, hepoch⟩ := hpolicy
  refine ⟨record.context, body, hproven, not_not.mp hprovider, ⟨proof, record.evidence, eventData, hproof, huser,
    hevidence, hauthorization, heventData, hhex, hsame.trans hdecimal, ?_⟩, hissuerId, hageClass, hassurance, hepoch⟩
  rw [beq_iff_eq.mp hcountry]
  exact present_eq_some hpresent

/-- A step that writes no authorization into the log. -/
theorem Sound.change {w : World} (h : Sound o w) {g : Gateway} {entries : List Entry}
    (hentries : ∀ request, .authorized request ∉ entries)
    (hcontexts : ∀ requestId context, g.contexts requestId = some context →
      .created context ∈ w.log ++ entries ∧ validateGatewayRequest context.request = .ok ())
    (hrecords : ∀ authorization record, g.issuanceAuthorizations authorization = some record →
      Recorded o (w.log ++ entries) authorization record) :
    Sound o { w with gateway := g, log := w.log ++ entries } :=
  ⟨hcontexts, hrecords, fun c frame hframe ↦ (h.frames c frame hframe).grows entries,
    authorized_grows h.authorized hentries⟩

/-- A step that changes the calls only. -/
theorem Sound.next {w : World} (h : Sound o w) (c : ℕ) {next : Next}
    (hnext : ∀ frame, next = .wait frame → FrameSound w.log frame) : Sound o (w.next c next) := by
  cases next with
  | wait frame =>
    refine ⟨h.contexts, h.records, fun c' frame' hcall ↦ ?_, h.authorized⟩
    obtain ⟨_, rfl⟩ | ⟨_, hcall⟩ := Tables.update_some_eq_some hcall
    · exact hnext frame' rfl
    · exact h.frames c' frame' hcall
  | done result =>
    refine ⟨h.contexts, h.records, fun c' frame' hcall ↦ ?_, h.authorized⟩
    exact h.frames c' frame' (Tables.update_none_eq_some hcall).2

/-- An answer that leaves the gateway as it is. -/
theorem Sound.keep {w : World} (h : Sound o w) {entries : List Entry}
    (hentries : ∀ request, .authorized request ∉ entries)
    (hdeleted : ∀ requestId, .deleted requestId ∉ entries) :
    Sound o { w with log := w.log ++ entries } :=
  h.change hentries
    (fun requestId context hcontext ↦ (h.contexts requestId context hcontext).imp_left (List.mem_append_left _))
    fun authorization record hrecord ↦ (h.records authorization record hrecord).grows (hdeleted _)

/-- What an answer to a call leaves behind. -/
structure Resumed (o : Options) (w : World) (g : Gateway) (entries : List Entry) (next : Next) : Prop where
  sound : Sound o { w with gateway := g, log := w.log ++ entries }
  next : ∀ frame, next = .wait frame → FrameSound (w.log ++ entries) frame

theorem Sound.nothing {w : World} (h : Sound o w) (result : Except GatewayError Result) :
    Resumed o w w.gateway [] (.done result) :=
  ⟨h.keep (fun _ hmem ↦ by cases hmem) (fun _ hmem ↦ by cases hmem), fun _ hwait ↦ by cases hwait⟩

/-- A link makes a context. -/
theorem Sound.link {w : World} (h : Sound o w) {request : RarimoVerificationRequest} {body : Body} {g : Gateway}
    {context : VerificationContext} {link : RarimoVerificationLink}
    (hvalidated : validateGatewayRequest request = .ok ())
    (hlink : afterLink o w.gateway request body = .ok (g, context, link)) (result : Except GatewayError Result) :
    Resumed o w g [.created context] (.done result) := by
  rw [afterLink] at hlink
  split at hlink
  · cases hlink
  cases hlink
  refine ⟨h.change (fun _ hmem ↦ by simp at hmem) (fun requestId context' hcontext ↦ ?_)
    (fun authorization record hrecord ↦ (h.records authorization record hrecord).grows (by simp)),
    fun _ hwait ↦ by cases hwait⟩
  obtain ⟨_, rfl⟩ | ⟨_, hcontext⟩ := Tables.update_some_eq_some hcontext
  · exact ⟨List.mem_append_right _ List.mem_cons_self, hvalidated⟩
  · exact (h.contexts requestId context' hcontext).imp_left (List.mem_append_left _)

/-- A proof that is read is recorded under its context, or the record that is there already is kept. -/
theorem Sound.proof {w : World} (h : Sound o w) {context : VerificationContext} {body : Body} {now : ℤ} {g : Gateway}
    {evidence : RarimoVerifiedEvidence} (horder : [.created context, .verified context].Sublist w.log)
    (hvalidated : validateGatewayRequest context.request = .ok ())
    (hproof : afterProof o w.gateway context body now = .ok (g, evidence)) (result : Except GatewayError Result) :
    Resumed o w g [.proven context body] (.done result) := by
  have hkept : Sound o { w with log := w.log ++ [.proven context body] } :=
    h.keep (fun _ hmem ↦ by simp at hmem) fun _ hmem ↦ by simp at hmem
  rw [afterProof] at hproof
  split at hproof
  · cases hproof
  next evidence' hread =>
  split at hproof
  · cases hproof
    refine ⟨⟨hkept.contexts, fun authorization record hrecord ↦ ?_, hkept.frames, hkept.authorized⟩,
      fun _ hwait ↦ by cases hwait⟩
    obtain ⟨rfl, rfl⟩ | ⟨_, hrecord⟩ := Tables.update_some_eq_some hrecord
    · exact ⟨body, ⟨⟨w.log, [], rfl, horder, List.not_mem_nil⟩, hvalidated⟩, hread, rfl⟩
    · exact hkept.records authorization record hrecord
  · split at hproof
    · cases hproof
    · cases hproof
      exact ⟨hkept, fun _ hwait ↦ by cases hwait⟩

/-- A deletion takes the context and the records of the request away. -/
theorem Sound.forget {w : World} (h : Sound o w) (requestId : JsString) (result : Except GatewayError Result) :
    Resumed o w (forget w.gateway requestId) [.deleted requestId] (.done result) := by
  refine ⟨h.change (fun _ hmem ↦ by simp at hmem) (fun requestId' context hcontext ↦ ?_)
    (fun authorization record hrecord ↦ ?_), fun _ hwait ↦ by cases hwait⟩
  · obtain ⟨_, hcontext⟩ := Tables.update_none_eq_some hcontext
    exact (h.contexts requestId' context hcontext).imp_left (List.mem_append_left _)
  · obtain ⟨hrecord, hother⟩ := Option.filter_eq_some_iff.mp hrecord
    apply (h.records authorization record hrecord).grows
    rw [List.mem_singleton, Entry.deleted.injEq]
    exact of_decide_eq_true hother

theorem Sound.resume {w : World} (h : Sound o w) {frame : Frame} (hframe : FrameSound w.log frame)
    (reply : Except GatewayError Body) (now : ℤ) :
    Resumed o w (resume o w frame reply now).1 (resume o w frame reply now).2.1 (resume o w frame reply now).2.2 := by
  cases frame with
  | creating request =>
    cases reply with
    | error e => exact h.nothing _
    | ok body =>
      simp only [RarimoGateway.resume]
      cases hlink : afterLink o w.gateway request body with
      | error e => exact h.nothing _
      | ok link => exact h.link hframe hlink _
  | readingStatus requestId =>
    cases reply with
    | error e => exact h.nothing _
    | ok body =>
      simp only [RarimoGateway.resume]
      cases decodeVerificationStatus body.json requestId with
      | error message => exact h.nothing _
      | ok status => exact h.nothing _
  | checkingStatus context =>
    cases reply with
    | error e => exact h.nothing _
    | ok body =>
      simp only [RarimoGateway.resume]
      cases decodeVerificationStatus body.json context.request.requestId with
      | error message => exact h.nothing _
      | ok status =>
        cases status with
        | verified =>
          refine ⟨h.keep (fun _ hmem ↦ by simp at hmem) fun _ hmem ↦ by simp at hmem, fun frame hwait ↦ ?_⟩
          cases hwait
          exact ⟨(List.singleton_sublist.mpr hframe.1).append (List.Sublist.refl _), hframe.2⟩
        | _ => exact h.nothing _
  | readingProof context =>
    cases reply with
    | error e => exact h.nothing _
    | ok body =>
      simp only [RarimoGateway.resume]
      cases hproof : afterProof o w.gateway context body now with
      | error e => exact h.nothing _
      | ok read => exact h.proof hframe.1 hframe.2 hproof _
  | deleting requestId =>
    cases reply with
    | error e => exact h.forget requestId _
    | ok body => exact h.forget requestId _

theorem sound_step (w : World) (e : Event) (w' : World) (h : Sound o w) (hstep : step o w e = .ok w') : Sound o w' := by
  have hdone : ∀ c result, Sound o (w.next c (.done result)) := fun c result ↦ h.next c fun _ hwait ↦ by cases hwait
  cases e with
  | createVerificationRequest c request =>
    simp only [step] at hstep
    split at hstep
    · split at hstep
      · cases hstep
        exact hdone c _
      · next hvalidated =>
        cases hstep
        exact h.next c fun frame hwait ↦ by cases hwait; exact hvalidated
    · cases hstep
  | getVerificationStatus c requestId =>
    simp only [step] at hstep
    split at hstep
    · cases hstep
      exact h.next c fun frame hwait ↦ by cases hwait; trivial
    · cases hstep
  | getVerifiedEvidence c requestId =>
    simp only [step] at hstep
    split at hstep
    · split at hstep
      · cases hstep
        exact hdone c _
      · next context hcontext =>
        cases hstep
        exact h.next c fun frame hwait ↦ by cases hwait; exact h.contexts requestId context hcontext
    · cases hstep
  | deleteVerification c requestId =>
    simp only [step] at hstep
    split at hstep
    · cases hstep
      exact h.next c fun frame hwait ↦ by cases hwait; trivial
    · cases hstep
  | validateCredentialIssuance request now =>
    simp only [step] at hstep
    split at hstep
    · next hvalid =>
      cases hstep
      have hauthorized := authorizes_of_validate h.records hvalid
      refine ⟨fun requestId context hcontext ↦ ?_, fun authorization record hrecord ↦ ?_, fun c frame hframe ↦ ?_,
        fun before request' after hsplit ↦ ?_⟩
      · exact (h.contexts requestId context hcontext).imp_left (List.mem_append_left _)
      · exact (h.records authorization record hrecord).grows (by simp)
      · exact (h.frames c frame hframe).grows _
      · -- The entry is the last one or one of those before.
        cases after using List.reverseRecOn with
        | nil =>
          obtain ⟨rfl, hlast⟩ := List.append_inj' hsplit rfl
          cases hlast
          exact hauthorized
        | append_singleton after last _ =>
          rw [← List.cons_append, ← List.append_assoc] at hsplit
          exact h.authorized before request' after (List.append_inj' hsplit rfl).1
    · cases hstep
      exact h
  | answer c reply now =>
    simp only [step] at hstep
    split at hstep
    · cases hstep
    · next frame hframe =>
      cases hstep
      have hresumed := h.resume (h.frames c frame hframe) reply now
      exact hresumed.sound.next c hresumed.next

theorem sound_init : Sound o init where
  contexts := fun _ _ h ↦ by cases h
  records := fun _ _ h ↦ by cases h
  frames := fun _ _ h ↦ by cases h
  authorized := fun before _ after h ↦ absurd h (by simp [init])

/-- In every run, each issuance that the gateway authorizes is backed by a proof. -/
theorem issuance_is_backed (events : List Event) :
    ∀ before request after, (run (step o) init events).log = before ++ .authorized request :: after →
      ∃ context body, ProvenIn before context body ∧ Authorizes o context body request :=
  (run_invariant sound_step sound_init events).authorized

end MidnightReferendum.RarimoGateway
