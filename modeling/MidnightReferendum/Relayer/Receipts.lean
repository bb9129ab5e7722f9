import MidnightReferendum.Relayer.Indexer
import MidnightReferendum.Relayer.Wallet

/-!
# Receipts

A job is confirmed together with its receipt, and only after the indexer has returned a payload that
proves its transaction.
-/

namespace MidnightReferendum.Relayer

open Js

variable {ρ : Type} {cfg : Config ρ}

/-- The indexer has answered the query for the job with a receipt. -/
def Confirmation (cfg : Config ρ) (log : List (Observation ρ)) (id : JsString) (query : ResolveQuery)
    (receipt : CanonicalReceipt) : Prop :=
  ∃ raw, .indexed id query raw ∈ log ∧ cfg.resolve query raw = .ok (some receipt)

/-- The query is that of a job of the store. -/
def Asked (s : MemoryStore) (id : JsString) (query : ResolveQuery) : Prop :=
  ∃ job, s.get id = some job ∧ job.query = query ∧ truthy job.transactionId

theorem Confirmation.append {log : List (Observation ρ)} {id : JsString} {query : ResolveQuery}
    {receipt : CanonicalReceipt} (h : Confirmation cfg log id query receipt)
    (observations : List (Observation ρ)) :
    Confirmation cfg (log ++ observations) id query receipt := by
  obtain ⟨raw, hmem, hresolve⟩ := h
  exact ⟨raw, List.mem_append_left _ hmem, hresolve⟩

/-- A job keeps its query once it has a transaction id. -/
theorem Asked.serve {w : World cfg} {t p : ℕ} {c : StoreFrame} (hI : (ownership cfg).Holds w)
    (htask : w.tasks t = some (p, .waiting c)) (now : JsString) (fault : Fault) {id : JsString}
    {query : ResolveQuery} (h : Asked w.shared.store id query) :
    Asked (serve cfg c now fault w.shared.store).2 id query := by
  obtain ⟨job, hjob, hquery, htruthy⟩ := h
  obtain ⟨next, hnext, hsame, _⟩ := (MemoryStore.serve_grows cfg c now fault).rank_le hjob
  cases hid : job.transactionId with
  | none => simp [hid, truthy] at htruthy
  | some transactionId =>
    have hkept := serve_transactionId hI htask now fault hjob hnext hid
    refine ⟨next, hnext, ?_, by rw [hkept, ← hid]; exact htruthy⟩
    rw [← hquery]
    simp only [Job.query, hkept, hid, hsame.network, hsame.contractAddress, hsame.circuit, hsame.action]

section Frames

variable {sha256 : JsString → JsString}

/-- The job that a reconciliation asks the indexer about. -/
def Frame.asking : Frame sha256 → Option (JsString × Job)
  | .ready (.reconcileRead _ id) (.ok (some job)) =>
    if truthy job.transactionId then some (id, job) else none
  | .external (.resolve _ id job) => some (id, job)
  | _ => none

theorem startLoop_asking (m : Memory) (jobs : List Job) :
    (startLoop m jobs : Next sha256).frame.asking = none := by
  induction jobs generalizing m with
  | nil => rfl
  | cons job rest ih =>
    rw [startLoop]
    split
    · exact ih _
    · rfl

theorem reconciled_asking (m : Memory) (reader : Option Reader) (id : JsString)
    (result : Option PublicJob) : (reconciled m reader id result : Next sha256).frame.asking = none := by
  cases reader <;> rfl

theorem resume_asking (m : Memory) (uuid : JsString) (c : StoreFrame)
    (reply : Except StoreError (c.call sha256).Answer) {id : JsString} {job : Job}
    (h : (resume m uuid c reply).frame.asking = some (id, job)) :
    (Frame.ready c reply).asking = some (id, job) := by
  cases c
  case reconcileRead reader id' =>
    rcases reply with e | _ | job'
    · cases h
    · cases (reconciled_asking m reader id' none).symm.trans h
    · simp only [resume, reconcileFound] at h
      split at h
      · cases (reconciled_asking m reader id' _).symm.trans h
      · next hopen =>
        rw [← h]
        simp at hopen
        simp [Frame.asking, hopen]
  case startList =>
    rcases reply with e | jobs
    · cases h
    · cases (startLoop_asking m jobs).symm.trans h
  case startRecover id' rest =>
    rcases reply with e | _
    · cases h
    · cases (startLoop_asking m rest).symm.trans h
  case reconcileLagging reader id' job' =>
    rcases reply with e | latest
    · cases h
    · cases (reconciled_asking m reader id' _).symm.trans h
  case reconcileLatest reader id' =>
    rcases reply with e | latest
    · cases h
    · cases (reconciled_asking m reader id' _).symm.trans h
  all_goals
    simp only [resume, acceptCreated, acceptFoundByKey, acceptConsumed, acceptReconsumed, acceptFailed,
      accepted, readerRead, readerLatest, reconcileConfirmed, reconcileRejected, reconcileLater,
      walletFound, walletValidated, walletReserved, walletClosed, walletFinalized, walletIntended,
      walletAwaitsIndexer] at h
    repeat' split at h
    all_goals cases h

theorem Part.asking {m : Memory} {f : Frame cfg.sha256} {i : Input ρ}
    {observations : List (Observation ρ)} {next : Next cfg.sha256}
    (h : Part cfg m f i observations next) {id : JsString} {job : Job}
    (hid : next.frame.asking = some (id, job)) : f.asking = some (id, job) := by
  cases h with
  | resumed c reply uuid => exact resume_asking m uuid c reply hid
  | balanced id pending result => rcases result with _ | ⟨finalized, derivedId⟩ <;> cases hid
  | submitted id finalized derivedId result =>
    simp only [walletSubmitted] at hid
    repeat' split at hid
    all_goals cases hid
  | indexed reader id job raw =>
    simp only [reconcileResolved] at hid
    split at hid
    all_goals cases hid

end Frames

/-! ## The invariant of the receipts -/

/-- A job has a receipt exactly if it is confirmed, and the receipt comes from the indexer. -/
structure Receipted (cfg : Config ρ) (s : Shared ρ) : Prop where
  confirmed : ∀ {id job}, s.store.get id = some job → (job.receipt.isSome ↔ job.status = .confirmed)
  confirmation : ∀ {id job receipt}, s.store.get id = some job → job.receipt = some receipt →
    truthy job.transactionId ∧ Confirmation cfg s.log id job.query receipt

structure ReceiptTask (cfg : Config ρ) (s : Shared ρ) (f : Frame cfg.sha256) : Prop where
  asking : ∀ id job, f.asking = some (id, job) → Asked s.store id job.query
  confirming : ∀ reader id receipt, f = .waiting (.reconcileConfirm reader id receipt) →
    ∃ query, Asked s.store id query ∧ Confirmation cfg s.log id query receipt

def receipts (cfg : Config ρ) : Invariant cfg where
  shared := Receipted cfg
  memory _ _ := True
  task := ReceiptTask cfg
  apart _ _ := True

/-- A job becomes confirmed by the transition of a reconciliation, which sets its receipt. -/
theorem serve_confirmed {s : MemoryStore} {c : StoreFrame} {now : JsString} {fault : Fault}
    {id : JsString} {job next : Job} (hjob : s.get id = some job)
    (hnext : (serve cfg c now fault s).2.get id = some next) (hold : job.status ≠ .confirmed)
    (hnew : next.status = .confirmed) : ∃ reader receipt, c = .reconcileConfirm reader id receipt ∧
      next.receipt = some receipt ∧ next.query = job.query := by
  have hchange := serve_change cfg s c now fault id
  rw [hjob, hnext] at hchange
  generalize hcall : c.call cfg.sha256 = call at hchange
  cases hchange with
  | same => exact absurd hnew hold
  | moved =>
    cases c <;> simp only [StoreFrame.call, reduceCtorEq, StoreCall.transition.injEq] at hcall
    all_goals obtain ⟨rfl, rfl, rfl⟩ := hcall
    case reconcileConfirm reader receipt => exact ⟨_, _, rfl, rfl, rfl⟩
    all_goals simp [Job.patch] at hnew
  | reserved => simp [Job.reserve] at hnew

theorem Receipted.serve {w : World cfg} {t p : ℕ} {c : StoreFrame} (hI : (receipts cfg).Holds w)
    (htask : w.tasks t = some (p, .waiting c)) (now : JsString) (fault : Fault) :
    Receipted cfg (served cfg w.shared c now fault) := by
  have hs : Receipted cfg w.shared := hI.shared
  have hc : ReceiptTask cfg w.shared (.waiting c) := hI.task htask
  have hcases : ∀ {id next}, (Relayer.serve cfg c now fault w.shared.store).2.get id = some next →
      (next.receipt.isSome ↔ next.status = .confirmed) ∧ ∀ receipt, next.receipt = some receipt →
        truthy next.transactionId ∧ Confirmation cfg w.shared.log id next.query receipt := by
    intro id next hnext
    have hstep := serve_step cfg w.shared.store c now fault id
    rw [hnext] at hstep
    generalize hjob : w.shared.store.get id = job at hstep
    cases hstep with
    | same => exact ⟨hs.confirmed hjob, fun receipt ↦ hs.confirmation hjob⟩
    | created => exact ⟨by simp [NewJob.job], fun receipt h ↦ by simp [NewJob.job] at h⟩
    | @moved job _ _ hmoves _ =>
      have hold : job.status ≠ .confirmed := by
        intro hold
        have hrank := hmoves.rank
        rw [hold] at hrank
        exact Nat.not_lt.mpr next.status.rank_le hrank
      have hnone : job.receipt = none := by
        rw [← Option.not_isSome_iff_eq_none, hs.confirmed hjob]
        exact hold
      by_cases hnew : next.status = .confirmed
      · obtain ⟨reader, receipt, rfl, hreceipt, hquery⟩ := serve_confirmed hjob hnext hold hnew
        obtain ⟨query, ⟨job', hjob', rfl, htruthy⟩, hconfirmation⟩ :=
          hc.confirming reader id receipt rfl
        obtain rfl := Option.some.inj (hjob.symm.trans hjob')
        refine ⟨by simp [hreceipt, hnew], fun receipt' h ↦ ?_⟩
        obtain rfl := Option.some.inj (hreceipt.symm.trans h)
        rw [hquery, hmoves.transactionId (by simp [hnew]) (by simp [hnew])]
        exact ⟨htruthy, hconfirmation⟩
      · have hreceipt := (hmoves.receipt hnew).trans hnone
        refine ⟨by simp [hreceipt, hnew], fun receipt h ↦ ?_⟩
        rw [hreceipt] at h
        cases h
  exact ⟨fun h ↦ (hcases h).1, fun h ↦ (hcases h).2 _⟩

/-- The job that a reconciliation has just read is in the store. -/
theorem serve_asking {s : MemoryStore} {c : StoreFrame} {now : JsString} {fault : Fault}
    {id : JsString} {job : Job}
    (h : (Frame.ready c (serve cfg c now fault s).1 : Frame cfg.sha256).asking = some (id, job)) :
    Asked s id job.query := by
  generalize hreply : (serve cfg c now fault s).1 = reply at h
  cases c <;> try cases h
  case reconcileRead reader id' =>
    rcases reply with e | _ | job'
    · cases h
    · cases h
    · obtain rfl := fault_of_ok hreply
      have hget : s.get id' = some job' := Except.ok.inj hreply
      simp only [Frame.asking] at h
      split at h
      · next htruthy =>
        cases h
        exact ⟨job, hget, rfl, htruthy⟩
      · cases h

theorem receipts_keeps : Keeps cfg (fun w _ ↦ (ownership cfg).Holds w) (receipts cfg) where
  symm _ := trivial
  fresh _ := trivial
  spawn {w p t i m f} _ _ hspawn := by
    have hf : f.asking = none ∧ f.settles = none := by
      simp only [spawn] at hspawn
      repeat' split at hspawn
      all_goals cases hspawn
      all_goals exact ⟨rfl, rfl⟩
    refine ⟨trivial, ⟨fun id job h ↦ ?_, fun reader id receipt h ↦ ?_⟩, fun _ ↦ trivial⟩
    · simp [hf.1] at h
    · simp [h, Frame.settles, StoreFrame.settles] at hf
  tick _ _ _ := trivial
  serve {w t p c now fault} hI hownership htask := by
    refine ⟨Receipted.serve hI htask now fault, ⟨fun id job h ↦ ?_, fun reader id receipt h ↦ by cases h⟩,
      fun _ ↦ trivial, fun _ hu ↦ ⟨⟨fun id job h ↦ ?_, fun reader id receipt h ↦ ?_⟩, trivial⟩⟩
    · exact (serve_asking h).serve hownership htask now fault
    · exact (ReceiptTask.asking (hI.task hu) id job h).serve hownership htask now fault
    · obtain ⟨query, hasked, hconfirmation⟩ := ReceiptTask.confirming (hI.task hu) reader id receipt h
      exact ⟨query, hasked.serve hownership htask now fault, hconfirmation⟩
  part {w t p f i observations next} hI _ htask hpart := by
    have hs : Receipted cfg w.shared := hI.shared
    have hf : ReceiptTask cfg w.shared f := hI.task htask
    refine ⟨⟨hs.confirmed, fun hjob hreceipt ↦
        (hs.confirmation hjob hreceipt).imp_right fun h ↦ h.append observations⟩,
      trivial, ⟨fun id job h ↦ hf.asking id job (hpart.asking h), fun reader id receipt h ↦ ?_⟩,
      fun _ ↦ trivial, fun _ hu ↦ ⟨⟨fun id job h ↦ ?_, fun reader id receipt h ↦ ?_⟩, trivial⟩⟩
    · have hsettles : next.frame.settles = some id := by rw [h]; rfl
      obtain ⟨reader', job, raw, rfl, _, rfl, _, hresolve⟩ := hpart.settles hsettles
      refine ⟨job.query, hf.asking id job rfl, raw, ?_, hresolve reader id receipt h⟩
      exact List.mem_append_right _ (List.mem_singleton.mpr rfl)
    · exact ReceiptTask.asking (hI.task hu) id job h
    · obtain ⟨query, hasked, hconfirmation⟩ := ReceiptTask.confirming (hI.task hu) reader id receipt h
      exact ⟨query, hasked, hconfirmation.append observations⟩

theorem receipts_after (es : List (Event ρ)) : (receipts cfg).Holds (after cfg es) := by
  refine receipts_keeps.after ⟨fun h ↦ ?_, fun h ↦ ?_⟩ es fun e he ↦ ?_
  · cases h
  · cases h
  · obtain ⟨pre, _, _, _, hstate, _⟩ := Execution.mem_accepted he
    rw [hstate]
    exact ownership_after pre

/-! ## The resolver of the deployment -/

/-- Services that read the indexer through `MidnightIndexerReceiptResolver`. -/
def indexerConfig (sha256 : JsString → JsString) (explorerBaseUrl : Option JsString) :
    Config IndexerResponse :=
  ⟨sha256, resolve explorerBaseUrl⟩

/-- The indexer has returned a payload that proves the transaction of a job. -/
def Job.ProvenBy (job : Job) (log : List (Observation IndexerResponse)) : Prop :=
  ∃ response, .indexed job.id job.query response ∈ log ∧ response.Proves job.query

/-- The receipt has the data of the job, and it was built from a payload that proves the transaction. -/
structure CanonicalReceipt.SoundFor (receipt : CanonicalReceipt) (explorerBaseUrl : Option JsString)
    (log : List (Observation IndexerResponse)) (job : Job) : Prop where
  transactionId : job.transactionId = some receipt.transactionId
  contractAddress : receipt.contractAddress = job.contractAddress
  circuit : receipt.circuit = job.circuit
  action : receipt.action = job.action
  network : receipt.network = job.network
  built : ∃ response, .indexed job.id job.query response ∈ log ∧
    resolve explorerBaseUrl job.query response = .ok (some receipt) ∧ response.Proves job.query

/-- **Receipts are sound.** Whatever the indexer returns, in every run a job has a receipt exactly if it
is confirmed, its receipt is sound, and a job that no payload has proved is not confirmed. -/
theorem receipts_sound (sha256 : JsString → JsString) (explorerBaseUrl : Option JsString)
    (es : List (Event IndexerResponse)) :
    ∀ job ∈ (after (indexerConfig sha256 explorerBaseUrl) es).shared.store.jobs.entries,
      (job.receipt.isSome ↔ job.status = .confirmed) ∧
      (∀ receipt, job.receipt = some receipt → receipt.SoundFor explorerBaseUrl
        (after (indexerConfig sha256 explorerBaseUrl) es).shared.log job) ∧
      (¬job.ProvenBy (after (indexerConfig sha256 explorerBaseUrl) es).shared.log →
        job.status ≠ .confirmed) := by
  intro job hjob
  have hs : Receipted (indexerConfig sha256 explorerBaseUrl) _ := (receipts_after es).shared
  have hget := MemoryStore.get_of_mem hjob
  have hsound : ∀ receipt, job.receipt = some receipt → receipt.SoundFor explorerBaseUrl
      (after (indexerConfig sha256 explorerBaseUrl) es).shared.log job := by
    intro receipt hreceipt
    obtain ⟨htruthy, response, hmem, hresolve⟩ := hs.confirmation hget hreceipt
    obtain ⟨hanswers, hproves⟩ := resolve_eq_ok hresolve
    refine ⟨?_, hanswers.contractAddress, hanswers.circuit, hanswers.action, hanswers.network, response,
      hmem, hresolve, hproves⟩
    cases hid : job.transactionId with
    | none => simp [hid, truthy] at htruthy
    | some transactionId => simp [hanswers.transactionId, Job.query, hid]
  refine ⟨hs.confirmed hget, hsound, fun hunproven hconfirmed ↦ ?_⟩
  obtain ⟨receipt, hreceipt⟩ := Option.isSome_iff_exists.mp ((hs.confirmed hget).mpr hconfirmed)
  obtain ⟨response, hmem, _, hproves⟩ := (hsound receipt hreceipt).built
  exact hunproven ⟨response, hmem, hproves⟩

/-- Calls of the store by one operation of a service with the indexer. -/
def provenCalls (t n : ℕ) : List (Event IndexerResponse) :=
  (List.replicate n [.advance t (.serve (js "now") .none), .advance t (.resume (js "u"))]).flatten

/-- A job is accepted, submitted and confirmed by what the indexer returns. -/
def provenRun : List (Event IndexerResponse) :=
  .spawn 0 0 (.accept { sampleAccept "aaaa" with
    request := { (sampleAccept "aaaa").request with contractAddress := js "contract-1" } }) ::
    provenCalls 0 3 ++ .spawn 0 1 .dequeue :: provenCalls 1 3 ++
    .advance 1 (.balanced (.ok (js "ff", some (js "tx-1")))) :: provenCalls 1 2 ++
    .advance 1 (.submitted (.ok (js "tx-1"))) :: provenCalls 1 1 ++
    .spawn 0 2 (.fireReconcile (js "aaaa")) :: provenCalls 2 1 ++
    .advance 2 (.indexed (sampleResponse "SUCCESS")) :: provenCalls 2 2

theorem receipts_sound_sample :
    ∃ job ∈ (after (indexerConfig sampleHash none) provenRun).shared.store.jobs.entries,
      job.status = .confirmed ∧ ∃ receipt, job.receipt = some receipt ∧ receipt.SoundFor none
        (after (indexerConfig sampleHash none) provenRun).shared.log job := by
  have hstatus : (after (indexerConfig sampleHash none) provenRun).shared.store.jobs.entries.map
      Job.status = [.confirmed] := by
    decide +kernel
  generalize provenRun = es at hstatus ⊢
  obtain ⟨job, hjob, hconfirmed⟩ : ∃ job ∈
      (after (indexerConfig sampleHash none) es).shared.store.jobs.entries, job.status = .confirmed := by
    rw [← List.mem_map, hstatus]
    exact List.mem_singleton.mpr rfl
  obtain ⟨hreceipt, hsound, _⟩ := receipts_sound sampleHash none es job hjob
  obtain ⟨receipt, hsome⟩ := Option.isSome_iff_exists.mp (hreceipt.mpr hconfirmed)
  exact ⟨job, hjob, hconfirmed, receipt, hsome, hsound receipt hsome⟩

end MidnightReferendum.Relayer
