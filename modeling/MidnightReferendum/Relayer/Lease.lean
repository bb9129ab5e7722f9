import MidnightReferendum.Relayer.Submission

/-!
# The DUST lease

Which runs keep a second job from spending DUST while the outcome of a submission is open.
-/

namespace MidnightReferendum.Relayer

open Js

variable {ρ : Type} {cfg : Config ρ}

/-- The indexer has given a definitive answer about the transaction of a job. -/
def Decided (cfg : Config ρ) (log : List (Observation ρ)) (id : JsString) : Prop :=
  ∃ query raw, .indexed id query raw ∈ log ∧ Definitive (cfg.resolve query raw)

/-- No job is balanced while the outcome of another submission is open. -/
def Exclusive (cfg : Config ρ) (log : List (Observation ρ)) : Prop :=
  ∀ earlier id tx, earlier ++ [.executor (.balanceAndFinalize id tx)] <+: log →
    ∀ other ∈ submits earlier, other ≠ id → Decided cfg earlier other

/-- The lease of a job has been granted, and its wallet operation is about to balance it. -/
def Frame.granted {sha256 : JsString → JsString} : Frame sha256 → Option JsString
  | .ready (.walletReserve id _ _) (.ok (some _)) => some id
  | _ => none

/-- What `submit` returns tells under which id the transaction was sent, or the id was known before. -/
def unambiguous (derivedId : Option JsString) (result : Except Unit JsString) : Bool :=
  match requireTransactionId result, derivedId with
  | none, none => false
  | some transactionId, some derivedId => transactionId == derivedId
  | _, _ => true

/-- A step that does not give up the lease of a job too early. -/
structure LeaseStep (w : World cfg) (e : Event ρ) : Prop where
  answered : ∀ t p id finalized derivedId result, e = .advance t (.submitted result) →
    w.tasks t = some (p, .external (.submit id finalized derivedId)) → unambiguous derivedId result
  recovered : ∀ t p id rest now fault, e = .advance t (.serve now fault) →
    w.tasks t = some (p, .waiting (.startRecover id rest)) →
    ∀ u q g, w.tasks u = some (q, g) → g.granted ≠ some id

/-! ## The invariant of the lease -/

structure LeaseShared (cfg : Config ρ) (s : Shared ρ) : Prop where
  exclusive : Exclusive cfg s.log
  undecided : ∀ id ∈ submits s.log, Decided cfg s.log id ∨ ∃ job, s.store.get id = some job ∧
    (job.status = .submitted ∨ job.status = .indexerPending)

structure LeaseTask (cfg : Config ρ) (s : Shared ρ) (f : Frame cfg.sha256) : Prop where
  granted : ∀ id, f.granted = some id → ∃ job, s.store.get id = some job ∧ job.status = .dustReserved
  intended : ∀ id derivedId, f.stage = some (id, .intended derivedId) →
    Decided cfg s.log id ∨ ∃ job, s.store.get id = some job ∧ job.status = .submitted
  settles : ∀ id, f.settles = some id → Decided cfg s.log id
  closing : ∀ id, f.stage ≠ some (id, .closing)

def lease (cfg : Config ρ) : Invariant cfg where
  shared := LeaseShared cfg
  memory _ _ := True
  task := LeaseTask cfg
  apart _ _ := True

theorem Decided.append {log : List (Observation ρ)} {id : JsString} (h : Decided cfg log id)
    (observations : List (Observation ρ)) : Decided cfg (log ++ observations) id := by
  obtain ⟨query, raw, hmem, hdefinitive⟩ := h
  exact ⟨query, raw, List.mem_append_left _ hmem, hdefinitive⟩

/-- The call of an owner that has submitted its job. -/
theorem serve_pending {s : MemoryStore} {c : StoreFrame} {now : JsString} {fault : Fault}
    {id transactionId : JsString} {job : Job} (hjob : s.get id = some job)
    (hstatus : job.status = .submitted ∨ job.status = .indexerPending)
    (hc : (Frame.waiting c : Frame cfg.sha256).stage = some (id, .pending transactionId)) :
    ∃ next, (serve cfg c now fault s).2.get id = some next ∧
      (next.status = .submitted ∨ next.status = .indexerPending) := by
  have hchange := serve_change cfg s c now fault id
  rw [hjob] at hchange
  generalize (serve cfg c now fault s).2.get id = next at hchange ⊢
  generalize hcall : c.call cfg.sha256 = call at hchange
  cases hchange with
  | same => exact ⟨job, rfl, hstatus⟩
  | moved =>
    refine ⟨_, rfl, Or.inr ?_⟩
    cases c <;> cases hc
    all_goals
      cases hcall
      rfl
  | reserved =>
    cases c <;> cases hc
    all_goals cases hcall

/-- A submitted job keeps the lease, until it is settled or its operation closes it. -/
theorem serve_undecided {w : World cfg} {t p : ℕ} {c : StoreFrame} {now : JsString} {fault : Fault}
    (hownership : (ownership cfg).Holds w) (htask : w.tasks t = some (p, .waiting c)) {id : JsString}
    (hid : id ∈ submits w.shared.log) {job : Job} (hjob : w.shared.store.get id = some job)
    (hstatus : job.status = .submitted ∨ job.status = .indexerPending)
    (hsettles : c.settles ≠ some id)
    (hclosing : (Frame.waiting c : Frame cfg.sha256).stage ≠ some (id, .closing)) :
    ∃ next, (serve cfg c now fault w.shared.store).2.get id = some next ∧
      (next.status = .submitted ∨ next.status = .indexerPending) := by
  by_cases howner : ∃ stage, (Frame.waiting c : Frame cfg.sha256).stage = some (id, stage)
  · obtain ⟨stage, hstage⟩ := howner
    have howned := hownership.task htask id stage hstage
    cases stage with
    | pending transactionId => exact serve_pending hjob hstatus hstage
    | closing => exact absurd hstage hclosing
    | posted derivedId => cases c <;> cases hstage
    | _ => exact absurd hid (howned.unsubmitted rfl)
  · have hne : job.status ≠ .authorized := by
      rcases hstatus with h | h
      · simp [h]
      · simp [h]
    obtain ⟨next, hnext, hdrift⟩ := serve_drift cfg c now fault hjob hne
      fun stage h ↦ howner ⟨stage, h⟩
    refine ⟨next, hnext, ?_⟩
    cases hdrift with
    | same => exact hstatus
    | settled hc _ _ _ _ =>
      rw [MemoryStore.id_of_get hjob] at hc
      exact absurd hc hsettles
    | recovered _ hold _ _ =>
      rcases hstatus with h | h
      · simp [h, Status.rank] at hold
      · simp [h, Status.rank] at hold

/-- A lease is granted to a job that is reserved. -/
theorem serve_granted {s : MemoryStore} {c : StoreFrame} {now : JsString} {fault : Fault}
    {id : JsString} (h : (Frame.ready c (serve cfg c now fault s).1).granted = some id) :
    ∃ next, (serve cfg c now fault s).2.get id = some next ∧ next.status = .dustReserved := by
  generalize hreply : (serve cfg c now fault s).1 = reply at h
  cases c
  case walletReserve id' pending reservationId =>
    rcases reply with e | _ | next <;> cases h
    obtain rfl := fault_of_ok hreply
    have hreserved := Except.ok.inj hreply
    obtain ⟨job, _, _, _, hnext, _⟩ := MemoryStore.reserveDust_reply hreserved
    refine ⟨next, MemoryStore.get_reserveDust hreserved, ?_⟩
    rw [hnext]
    rfl
  all_goals
    rcases reply with e | r
    all_goals cases h

theorem Frame.stage_of_granted {f : Frame cfg.sha256} {id : JsString} (h : f.granted = some id) :
    f.stage = some (id, .reserved) := by
  unfold Frame.granted at h
  split at h
  · cases h
    rfl
  · cases h

/-- A call of another operation keeps what the lease is about. -/
theorem LeaseTask.kept {w : World cfg} {t u p q : ℕ} {c : StoreFrame} {g : Frame cfg.sha256}
    {now : JsString} {fault : Fault} (hI : (lease cfg).Holds w) (hownership : (ownership cfg).Holds w)
    (hP : LeaseStep w (.advance t (.serve now fault))) (htask : w.tasks t = some (p, .waiting c))
    (hne : u ≠ t) (hu : w.tasks u = some (q, g)) : LeaseTask cfg (served cfg w.shared c now fault) g := by
  have hg : LeaseTask cfg w.shared g := hI.task hu
  have hdrift : ∀ id stage, g.stage = some (id, stage) → ∃ job next, w.shared.store.get id = some job ∧
      (serve cfg c now fault w.shared.store).2.get id = some next ∧ Drift c job next := by
    intro id stage hstage
    obtain ⟨job, hjob, hallows⟩ := (hownership.task hu id stage hstage).allows
    obtain ⟨next, hnext, hdrift⟩ := serve_drift cfg c now fault hjob
      hallows.ne_authorized fun stage' h ↦ hownership.apart hne hu htask id stage stage' hstage h
    exact ⟨job, next, hjob, hnext, hdrift⟩
  constructor
  · intro id hgranted
    obtain ⟨job, hjob, hstatus⟩ := hg.granted id hgranted
    obtain ⟨job', next, hjob', hnext, hdrift⟩ := hdrift id _ (Frame.stage_of_granted hgranted)
    obtain rfl := Option.some.inj (hjob.symm.trans hjob')
    refine ⟨next, hnext, ?_⟩
    cases hdrift with
    | same => exact hstatus
    | settled _ hold _ _ _ => simp [hstatus] at hold
    | recovered hc _ _ _ =>
      rw [MemoryStore.id_of_get hjob] at hc
      cases c <;> cases hc
      exact absurd hgranted (hP.recovered t p id _ now fault rfl htask u q g hu)
  · intro id derivedId hstage
    rcases hg.intended id derivedId hstage with h | ⟨job, hjob, hstatus⟩
    · exact Or.inl h
    · obtain ⟨job', next, hjob', hnext, hdrift⟩ := hdrift id _ hstage
      obtain rfl := Option.some.inj (hjob.symm.trans hjob')
      cases hdrift with
      | same => exact Or.inr ⟨job, hnext, hstatus⟩
      | settled hc _ _ _ _ =>
        rw [MemoryStore.id_of_get hjob] at hc
        exact Or.inl ((hI.task htask).settles id hc)
      | recovered _ hold _ _ => simp [hstatus, Status.rank] at hold
  · exact hg.settles
  · exact hg.closing

/-! ## Parts of methods -/

section Parts

variable {m : Memory} {f : Frame cfg.sha256} {i : Input ρ} {observations : List (Observation ρ)}
  {next : Next cfg.sha256}

/-- A part of a method observes one thing at most, and balances only a job with a granted lease. -/
def Observes (f : Frame cfg.sha256) (observations : List (Observation ρ)) : Prop :=
  observations = [] ∨ ∃ o, observations = [o] ∧
    ∀ id tx, o = .executor (.balanceAndFinalize id tx) → f.granted = some id

theorem resume_observes (m : Memory) (uuid : JsString) (c : StoreFrame)
    (reply : Except StoreError (c.call cfg.sha256).Answer) :
    Observes (.ready c reply) ((resume m uuid c reply).calls.map (Observation.executor (ρ := ρ))) := by
  cases hc : c.loud with
  | false => exact Or.inl (by rw [(resume_quiet m hc uuid reply).calls, List.map_nil])
  | true =>
    cases c <;> try cases hc
    case true.walletReserve id pending reservationId =>
      rcases reply with e | _ | job
      · exact Or.inl rfl
      · exact Or.inl rfl
      · refine Or.inr ⟨_, rfl, ?_⟩
        rintro _ _ ⟨⟩
        rfl
    case true.walletIntent id finalized derivedId =>
      rcases reply with e | _ | job
      · exact Or.inl rfl
      · exact Or.inl rfl
      · refine Or.inr ⟨_, rfl, ?_⟩
        rintro _ _ ⟨⟩
    all_goals
      simp only [resume, acceptCreated, acceptFoundByKey, acceptConsumed, acceptReconsumed, acceptFailed,
        walletFound, walletValidated, walletClosed, walletFinalized, walletAwaitsIndexer]
      repeat' split
      all_goals exact Or.inl rfl

theorem Part.observes (h : Part cfg m f i observations next) : Observes f observations := by
  cases h with
  | resumed c reply uuid => exact resume_observes m uuid c reply
  | indexed reader id job raw =>
    refine Or.inr ⟨_, rfl, ?_⟩
    rintro _ _ ⟨⟩
  | _ => exact Or.inl rfl

theorem Frame.of_stage_posted {id : JsString} {derivedId : Option JsString}
    (h : f.stage = some (id, .posted derivedId)) :
    ∃ finalized, f = .external (.submit id finalized derivedId) := by
  unfold Frame.stage at h
  split at h
  all_goals cases h
  exact ⟨_, rfl⟩

/-- An operation closes its job only after an ambiguous submission. -/
theorem Part.closing (h : Part cfg m f i observations next) {id : JsString}
    (hid : next.frame.stage = some (id, .closing)) : f.stage = some (id, .closing) ∨
      ∃ finalized derivedId result, f = .external (.submit id finalized derivedId) ∧
        i = .submitted result ∧ ¬unambiguous derivedId result := by
  have hstep := h.stage
  rw [hid] at hstep
  generalize hstage : f.stage = old at hstep
  generalize submits observations = sent at hstep
  cases hstep with
  | stay => exact Or.inl rfl
  | closing _ derivedId =>
    obtain ⟨finalized, rfl⟩ := Frame.of_stage_posted hstage
    cases h with
    | submitted _ _ _ result =>
      refine Or.inr ⟨finalized, derivedId, result, rfl, rfl, ?_⟩
      simp only [walletSubmitted] at hid
      unfold unambiguous
      split at hid
      · cases hid
      · next hnone => simp [hnone]
      · next hsome =>
        split at hid
        · next hne => simpa [hsome] using hne
        · cases hid
      · cases hid

end Parts

/-! ## Runs -/

theorem Exclusive.append {log : List (Observation ρ)} (h : Exclusive cfg log)
    {f : Frame cfg.sha256} {observations : List (Observation ρ)} (hf : Observes f observations)
    (hnew : ∀ id, f.granted = some id → ∀ other ∈ submits log, other ≠ id → Decided cfg log other) :
    Exclusive cfg (log ++ observations) := by
  rcases hf with rfl | ⟨o, rfl, hgranted⟩
  · rwa [List.append_nil]
  · intro earlier id tx hprefix other hother hne
    rcases List.prefix_concat_iff.mp hprefix with heq | hprefix
    · obtain ⟨rfl, hlast⟩ := List.append_inj' heq rfl
      exact hnew id (hgranted id tx (List.singleton_injective hlast).symm) other hother hne
    · exact h earlier id tx hprefix other hother hne

/-- An undecided submission excludes that another job has been granted the lease. -/
theorem LeaseShared.granted {s : Shared ρ} (h : LeaseShared cfg s) (hdistinct : s.store.Distinct)
    {f : Frame cfg.sha256} (hf : LeaseTask cfg s f) {id : JsString} (hgranted : f.granted = some id)
    {other : JsString} (hother : other ∈ submits s.log) (hne : other ≠ id) :
    Decided cfg s.log other := by
  obtain ⟨job, hjob, hstatus⟩ := hf.granted id hgranted
  refine (h.undecided other hother).resolve_right ?_
  rintro ⟨job', hjob', hstatus'⟩
  refine hne (hdistinct.active hjob' hjob ?_ (by simp [hstatus, Status.active]))
  rcases hstatus' with h | h
  · simp [h, Status.active]
  · simp [h, Status.active]

theorem Frame.sent_of_replied {f : Frame cfg.sha256} (h : f.replied) {id : JsString} {stage : Stage}
    (hstage : f.stage = some (id, stage)) : stage.sent = false := by
  cases f with
  | ready c reply =>
    unfold Frame.stage at hstage
    split at hstage
    all_goals first
      | cases hstage; rfl
      | contradiction
  | _ => cases h

theorem lease_keeps : Keeps cfg (fun w e ↦ (ownership cfg).Holds w ∧ LeaseStep w e) (lease cfg) where
  symm _ := trivial
  fresh _ := trivial
  spawn {w p t i m f} _ _ hspawn := by
    have hnone : f.granted = none ∧ f.stage = none ∧ f.settles = none := by
      simp only [spawn] at hspawn
      repeat' split at hspawn
      all_goals cases hspawn
      all_goals exact ⟨rfl, rfl, rfl⟩
    refine ⟨trivial, ⟨fun id h ↦ ?_, fun id derivedId h ↦ ?_, fun id h ↦ ?_, fun id h ↦ ?_⟩,
      fun _ ↦ trivial⟩
    · simp [hnone.1] at h
    · simp [hnone.2.1] at h
    · simp [hnone.2.2] at h
    · simp [hnone.2.1] at h
  tick _ _ _ := trivial
  serve {w t p c now fault} hI hP htask := by
    have hc : LeaseTask cfg w.shared (.waiting c) := hI.task htask
    refine ⟨⟨hI.shared.exclusive, fun id hid ↦ ?_⟩, ⟨fun id h ↦ serve_granted h,
      fun id derivedId h ↦ Or.inr (serve_intended h), fun id h ↦ ?_, fun id h ↦ ?_⟩,
      fun _ ↦ trivial, fun hne hu ↦ ⟨LeaseTask.kept hI hP.1 hP.2 htask hne hu, trivial⟩⟩
    · rcases hI.shared.undecided id hid with h | ⟨job, hjob, hstatus⟩
      · exact Or.inl h
      · by_cases hsettles : c.settles = some id
        · exact Or.inl (hc.settles id hsettles)
        · exact Or.inr (serve_undecided hP.1 htask hid hjob hstatus hsettles (hc.closing id))
    · cases h
    · cases Frame.sent_of_replied rfl h
  part {w t p f i observations next} hI hP htask hpart := by
    have hf : LeaseTask cfg w.shared f := hI.task htask
    have hstep := hpart.stage
    refine ⟨⟨hI.shared.exclusive.append hpart.observes fun id h other hother hne ↦
      hI.shared.granted hP.1.shared.distinct hf h hother hne, fun id hid ↦ ?_⟩, trivial,
      ⟨fun id h ↦ ?_, fun id derivedId h ↦ ?_, fun id h ↦ ?_, fun id h ↦ ?_⟩, fun _ ↦ trivial,
      fun _ hu ↦ ⟨?_, trivial⟩⟩
    · rw [Shared.record, submits_append, List.mem_append] at hid
      rcases hid with hid | hid
      · exact (hI.shared.undecided id hid).imp_left fun h ↦ h.append observations
      · generalize hstage : f.stage = old at hstep
        generalize submits observations = sent at hstep hid
        generalize next.frame.stage = new at hstep
        cases hstep with
        | post _ derivedId =>
          obtain rfl := List.mem_singleton.mp hid
          rcases hf.intended _ derivedId hstage with h | ⟨job, hjob, hstatus⟩
          · exact Or.inl (h.append observations)
          · exact Or.inr ⟨job, hjob, Or.inl hstatus⟩
        | _ => cases hid
    · have hreplied := hpart.replied
      unfold Frame.granted at h
      split at h
      · next heq =>
        rw [heq] at hreplied
        cases hreplied
      · cases h
    · rw [h] at hstep
      generalize hstage : f.stage = old at hstep
      generalize submits observations = sent at hstep
      cases hstep with
      | stay => exact (hf.intended id derivedId hstage).imp_left fun h ↦ h.append observations
    · obtain ⟨reader, job, raw, rfl, rfl, rfl, hdefinitive, _⟩ := hpart.settles h
      exact ⟨job.query, raw, List.mem_append_right _ List.mem_cons_self, hdefinitive⟩
    · rcases hpart.closing h with h | ⟨finalized, derivedId, result, rfl, rfl, hambiguous⟩
      · exact hf.closing id h
      · exact hambiguous (hP.2.answered t p id finalized derivedId result rfl htask)
    · have hg := hI.task hu
      exact ⟨hg.granted, fun id derivedId h ↦ (hg.intended id derivedId h).imp_left
        fun h ↦ h.append observations, fun id h ↦ (hg.settles id h).append observations, hg.closing⟩

/-- **The DUST lease.** In a run in which no submission is ambiguous without a derived id or contradicts
it, and in which `start` gives up no job whose lease has just been granted to a live operation, no job
is balanced while the outcome of another submission is open. -/
theorem lease_until_decided (cfg : Config ρ) (es : List (Event ρ))
    (h : ∀ e ∈ Execution.accepted (Tasks.step (service cfg)) (init cfg) es, LeaseStep e.1 e.2) :
    Exclusive cfg (after cfg es).shared.log := by
  have hinit : LeaseShared cfg (⟨.empty, []⟩ : Shared ρ) := by
    constructor
    · intro earlier id tx hprefix
      simp at hprefix
    · intro id hid
      cases hid
  refine (lease_keeps.after hinit es fun e he ↦ ⟨?_, h e he⟩).shared.exclusive
  obtain ⟨pre, _, _, _, hstate, _⟩ := Execution.mem_accepted he
  rw [hstate]
  exact ownership_after pre

/-! ## Sample runs -/

/-- A step that is neither a transition of `start` nor the answer to an ambiguous submission. -/
def keepsLease (w : World cfg) : Event ρ → Bool
  | .advance t (.serve _ _) =>
    match w.tasks t with
    | some (_, .waiting (.startRecover _ _)) => false
    | _ => true
  | .advance t (.submitted result) =>
    match w.tasks t with
    | some (_, .external (.submit _ _ derivedId)) => unambiguous derivedId result
    | _ => true
  | _ => true

theorem LeaseStep.of_keepsLease {w : World cfg} {e : Event ρ} (h : keepsLease w e = true) :
    LeaseStep w e where
  answered t p id finalized derivedId result he htask := by
    subst he
    simpa [keepsLease, htask] using h
  recovered t p id rest now fault he htask := by
    subst he
    simp [keepsLease, htask] at h

/-- One job is submitted and waits for the indexer, while another is refused the lease. -/
def leaseRun : List SampleEvent :=
  sampleAccepts 0 0 (sampleAccept "aaaa") ++ sampleAccepts 0 1 (sampleAccept "bbbb") ++
    sampleReserves 0 2 ++ sampleSubmits 2 (some (js "t1")) (.ok (js "t1")) ++ sampleReserves 0 3

theorem lease_until_decided_sample :
    Exclusive sampleConfig (after sampleConfig leaseRun).shared.log := by
  apply lease_until_decided
  have hcheck : (Execution.accepted (Tasks.step (service sampleConfig)) (init sampleConfig) leaseRun).all
      (fun e ↦ keepsLease e.1 e.2) = true := by
    decide +kernel
  exact fun e he ↦ LeaseStep.of_keepsLease (List.all_eq_true.mp hcheck e he)

/-- The executor reports another id than the one derived from the transaction. -/
def mismatchRun : List SampleEvent :=
  sampleAccepts 0 0 (sampleAccept "aaaa") ++ sampleAccepts 0 1 (sampleAccept "bbbb") ++
    sampleReserves 0 2 ++ sampleSubmits 2 (some (js "t1")) (.ok (js "t2")) ++ sampleReserves 0 3

/-- After the mismatch the next job is balanced, although the indexer has not answered. -/
theorem balanced_while_undecided : ¬Exclusive sampleConfig (after sampleConfig mismatchRun).shared.log := by
  have hlog : (after sampleConfig mismatchRun).shared.log =
      [.executor (.balanceAndFinalize (js "aaaa") (js "aaaa")), .executor (.submit (js "aaaa") (js "ff")),
        .executor (.balanceAndFinalize (js "bbbb") (js "bbbb"))] := by
    decide +kernel
  intro h
  rw [hlog] at h
  obtain ⟨query, raw, hmem, _⟩ := h [.executor (.balanceAndFinalize (js "aaaa") (js "aaaa")),
    .executor (.submit (js "aaaa") (js "ff"))] (js "bbbb") (js "bbbb") List.prefix_rfl (js "aaaa")
    (by simp [submits, Observation.submit?]) (by decide)
  simp at hmem

end MidnightReferendum.Relayer
