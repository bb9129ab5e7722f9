import MidnightReferendum.ReferendumV2.Schedule

/-!
# Counting every ballot

After `closeVote` each voter opens the ballot once. A reveal is refused when its commitment has been
revealed before, and the commitment of a ballot is its choice and salt, not its position in the tree.
So all reveals are accepted and counted, in every order, exactly when no two votes share an opening.
-/

namespace MidnightReferendum.ReferendumV2

open MidnightReferendum.Compact Execution Merkle

variable {B D : Type} {H : Hashing B D} {cfg : Sealed B D} [DecidableEq B] [DecidableEq D]

variable (H cfg) in
/-- The opening that a reveal publishes with a valid path into the ballot tree. -/
def Tx.validReveal (tree : HistoricTree H.tree 16) (tx : Tx B D) : Option (Opening B) :=
  match tx.call with
  | .revealVote choice salt path =>
    if path.leaf = ballotCommitment H cfg choice salt ∧ tree.checkRoot (pathRoot H.tree path) then
      some (choice, salt)
    else none
  | _ => none

variable (H cfg) in
def validReveals (tree : HistoricTree H.tree 16) (txs : List (Tx B D)) : List (Opening B) :=
  txs.filterMap (Tx.validReveal H cfg tree)

/-- The reveal phase over a fixed ballot tree. -/
structure Revealing (tree : HistoricTree H.tree 16) (s : Ledger H) : Prop where
  phase : s.phase = .reveal
  closed : s.closed = true
  ballots : s.ballotCommitments = tree

/-- Between `closeVote` and `finalizeVote` the ballots cast in `pre` are revealed, each of them once
with a valid path, in any order and among any other transactions. -/
structure RevealPeriod (H : Hashing B D) (cfg : Sealed B D) (s₀ : Ledger H)
    (pre post : List (Tx B D)) : Prop where
  commit : (runTxs H cfg s₀ pre).phase = .commit
  no_finalize : ∀ tx ∈ post, tx.call ≠ .finalizeVote
  once : (validReveals H cfg (runTxs H cfg s₀ pre).ballotCommitments post).Perm
    (castOpenings (history H cfg s₀ pre))

/-- Every reveal is accepted and the finalized tally counts every vote. -/
structure EveryBallotCounted (H : Hashing B D) (cfg : Sealed B D) (s₀ : Ledger H)
    (pre : List (Tx B D)) (closeTime : UInt64) (post : List (Tx B D)) : Prop where
  accepted : ∀ e ∈ trace (step H cfg) (runTxs H cfg s₀ (pre ++ [⟨closeTime, .closeVote⟩])) post,
    (e.2.validReveal H cfg (runTxs H cfg s₀ pre).ballotCommitments).isSome →
    ∃ s', step H cfg e.1 e.2 = .ok s'
  counted : ∀ time, cfg.revealClosesAtUnix ≤ time →
    let final := runTxs H cfg s₀ (pre ++ [⟨closeTime, .closeVote⟩] ++ post ++ [⟨time, .finalizeVote⟩])
    final.phase = .finalized ∧
      ∀ c, (final.tally c).toNat = votesFor (castOpenings (history H cfg s₀ pre)) c

theorem validReveals_concat (tree : HistoricTree H.tree 16) (txs : List (Tx B D)) (tx : Tx B D) :
    validReveals H cfg tree (txs ++ [tx]) =
      validReveals H cfg tree txs ++ (tx.validReveal H cfg tree).toList :=
  filterMap_concat _ txs tx

theorem step_revealing {tree : HistoricTree H.tree 16} {s s' : Ledger H} {tx : Tx B D}
    (hs : Revealing tree s) (hother : tx.call ≠ .finalizeVote) (h : step H cfg s tx = .ok s') :
    Revealing tree s' := by
  cases effect_of_step h with
  | castVote hguards _ =>
    have hphase := hguards.phase
    simp [hs.phase] at hphase
  | closeVote hphase _ _ => simp [hs.phase] at hphase
  | finalizeVote _ _ _ => exact absurd rfl hother
  | _ => exact ⟨hs.phase, hs.closed, hs.ballots⟩

/-- An accepted reveal had a valid path. -/
theorem validReveal_of_ok {tree : HistoricTree H.tree 16} {s s' : Ledger H} {tx : Tx B D}
    (hs : Revealing tree s) (h : step H cfg s tx = .ok s') :
    tx.validReveal H cfg tree = tx.revealOpening := by
  obtain ⟨now, call⟩ := tx
  cases call with
  | revealVote choice salt path =>
    have hguards := (revealVote_ok.mp h).1
    have hroot := hguards.root
    rw [hs.ballots] at hroot
    simp only [Tx.validReveal, Tx.revealOpening, hguards.leaf, hroot, and_self, if_true]
  | _ => rfl

/-- A reveal with a valid path is accepted unless its opening has been revealed before. -/
theorem accepted_of_fresh (hH : H.CollisionFree) {tree : HistoricTree H.tree 16}
    {h : List (Ledger H × Tx B D)} {s : Ledger H} {tx : Tx B D} {o : Opening B}
    (hs : Revealing tree s) (hbox : BallotBox cfg h s) (hvalid : tx.validReveal H cfg tree = some o)
    (hfresh : o ∉ revealOpenings h) : ∃ s', step H cfg s tx = .ok s' := by
  obtain ⟨now, call⟩ := tx
  cases call with
  | revealVote choice salt path =>
    simp only [Tx.validReveal, Option.ite_none_right_eq_some, Option.some.injEq] at hvalid
    obtain ⟨⟨hleaf, hroot⟩, rfl⟩ := hvalid
    have hunrevealed : ballotCommitment H cfg choice salt ∉ s.revealedCommitments := by
      intro hmem
      have hrevealed := (hbox.counted.revealed_register.mem_iff _).mp hmem
      exact hfresh ((List.mem_map_of_injective (commitmentOf_injective hH)).mp hrevealed)
    rw [← hs.ballots] at hroot
    exact ⟨_, revealVote_ok.mpr
      ⟨⟨hs.phase, hs.closed, hleaf, hroot, hunrevealed⟩, _, hbox.increment_fits choice, rfl⟩⟩
  | _ => simp [Tx.validReveal] at hvalid

/-- The start of a reveal period: the votes are cast and nothing has been revealed. -/
structure RevealStart (H : Hashing B D) (cfg : Sealed B D) (s₀ : Ledger H)
    (tree : HistoricTree H.tree 16) (start : List (Tx B D)) : Prop where
  revealing : Revealing tree (runTxs H cfg s₀ start)
  unrevealed : revealOpenings (history H cfg s₀ start) = []

/-- While every reveal with a valid path is accepted, the history holds these reveals. -/
theorem revealOpenings_of_accepted {s₀ : Ledger H} {tree : HistoricTree H.tree 16}
    {start post : List (Tx B D)} (hstart : RevealStart H cfg s₀ tree start)
    (hother : ∀ tx ∈ post, tx.call ≠ .finalizeVote)
    (haccepted : ∀ e ∈ trace (step H cfg) (runTxs H cfg s₀ start) post,
      (e.2.validReveal H cfg tree).isSome → ∃ s', step H cfg e.1 e.2 = .ok s') :
    Revealing tree (runTxs H cfg s₀ (start ++ post)) ∧
      revealOpenings (history H cfg s₀ (start ++ post)) = validReveals H cfg tree post := by
  induction post using List.reverseRecOn with
  | nil =>
    rw [List.append_nil]
    exact ⟨hstart.revealing, hstart.unrevealed⟩
  | append_singleton post tx ih =>
    rw [trace_concat, ← run_append] at haccepted
    obtain ⟨hrevealing, hopenings⟩ := ih
      (fun tx' htx ↦ hother tx' (List.mem_append_left _ htx))
      (fun e he ↦ haccepted e (List.mem_append_left _ he))
    have hlast := haccepted (runTxs H cfg s₀ (start ++ post), tx) (by simp)
    rw [← List.append_assoc, validReveals_concat]
    cases hok : step H cfg (runTxs H cfg s₀ (start ++ post)) tx with
    | ok s' =>
      rw [runTxs_concat_of_ok hok, history_concat_of_ok hok, revealOpenings_concat, hopenings,
        ← validReveal_of_ok hrevealing hok]
      exact ⟨step_revealing hrevealing (hother tx (by simp)) hok, rfl⟩
    | error message =>
      have hnone : tx.validReveal H cfg tree = none := by
        by_contra hsome
        obtain ⟨s', hok'⟩ := hlast (Option.isSome_iff_ne_none.mpr hsome)
        rw [hok] at hok'
        cases hok'
      rw [runTxs, run_concat, apply_of_error hok, history, accepted_append,
        accepted_cons_of_error hok, accepted_nil, List.append_nil, hnone, Option.toList_none,
        List.append_nil]
      exact ⟨hrevealing, hopenings⟩

/-- Reveals of distinct openings are all accepted. -/
theorem accepted_of_nodup (hH : H.CollisionFree) {s₀ : Ledger H} (h₀ : initialState H cfg = .ok s₀)
    {tree : HistoricTree H.tree 16} {start post : List (Tx B D)}
    (hstart : RevealStart H cfg s₀ tree start) (hother : ∀ tx ∈ post, tx.call ≠ .finalizeVote)
    (hnodup : (validReveals H cfg tree post).Nodup) :
    ∀ e ∈ trace (step H cfg) (runTxs H cfg s₀ start) post,
      (e.2.validReveal H cfg tree).isSome → ∃ s', step H cfg e.1 e.2 = .ok s' := by
  induction post using List.reverseRecOn with
  | nil => exact fun e he ↦ absurd he List.not_mem_nil
  | append_singleton post tx ih =>
    rw [validReveals_concat] at hnodup
    have hother' : ∀ tx ∈ post, tx.call ≠ .finalizeVote :=
      fun tx' htx ↦ hother tx' (List.mem_append_left _ htx)
    have hprefix := ih hother' (List.nodup_append.mp hnodup).1
    obtain ⟨hrevealing, hopenings⟩ := revealOpenings_of_accepted hstart hother' hprefix
    intro e he hvalid
    rw [trace_concat, ← run_append, List.mem_append] at he
    rcases he with he | he
    · exact hprefix e he hvalid
    · obtain rfl : e = (runTxs H cfg s₀ (start ++ post), tx) := List.mem_singleton.mp he
      obtain ⟨o, ho⟩ := Option.isSome_iff_exists.mp hvalid
      apply accepted_of_fresh hH hrevealing (run_ballotBox hH h₀ _) ho
      rw [hopenings]
      intro hmem
      exact (List.nodup_append.mp hnodup).2.2 o hmem o (by simp [ho]) rfl

/-- Closing the vote starts the reveal period. -/
theorem revealStart_of_close (hH : H.CollisionFree) {s₀ : Ledger H}
    (h₀ : initialState H cfg = .ok s₀) {pre : List (Tx B D)}
    (hcommit : (runTxs H cfg s₀ pre).phase = .commit) {now : UInt64} (hnow : cfg.closesAtUnix ≤ now) :
    RevealStart H cfg s₀ (runTxs H cfg s₀ pre).ballotCommitments (pre ++ [⟨now, .closeVote⟩]) := by
  have hopen := (runTxs_phaseConsistent h₀ pre).closed_eq_false hcommit
  have hok := closeVote_ok.mpr ⟨hcommit, hopen, hnow, rfl⟩
  constructor
  · rw [runTxs_concat_of_ok hok]
    exact ⟨rfl, rfl, rfl⟩
  · rw [history_concat_of_ok hok, revealOpenings_concat,
      (run_ballotBox hH h₀ pre).commit_phase hcommit]
    rfl

theorem every_ballot_counted_iff (hH : H.CollisionFree) {s₀ : Ledger H}
    (h₀ : initialState H cfg = .ok s₀) {pre post : List (Tx B D)} {closeTime : UInt64}
    (hclose : cfg.closesAtUnix ≤ closeTime) (hperiod : RevealPeriod H cfg s₀ pre post) :
    EveryBallotCounted H cfg s₀ pre closeTime post ↔ (castOpenings (history H cfg s₀ pre)).Nodup := by
  have hstart := revealStart_of_close hH h₀ hperiod.commit hclose
  constructor
  · intro hcounted
    obtain ⟨_, hopenings⟩ :=
      revealOpenings_of_accepted hstart hperiod.no_finalize hcounted.accepted
    have hbox := run_ballotBox hH h₀ (pre ++ [⟨closeTime, .closeVote⟩] ++ post)
    have hdistinct := hbox.counted.revealed_register.entries_nodup
    rw [hopenings] at hdistinct
    exact hperiod.once.nodup_iff.mp hdistinct
  · intro hnodup
    have haccepted := accepted_of_nodup hH h₀ hstart hperiod.no_finalize
      (hperiod.once.nodup_iff.mpr hnodup)
    refine ⟨haccepted, ?_⟩
    intro time htime final
    obtain ⟨hrevealing, hopenings⟩ :=
      revealOpenings_of_accepted hstart hperiod.no_finalize haccepted
    have hfinal := runTxs_concat_of_ok
      (finalizeVote_ok.mpr ⟨hrevealing.phase, hrevealing.closed, htime, rfl⟩)
    have hbox := run_ballotBox hH h₀ (pre ++ [⟨closeTime, .closeVote⟩] ++ post)
    refine ⟨congrArg Ledger.phase hfinal, fun c ↦ ?_⟩
    calc
      (final.tally c).toNat =
          ((runTxs H cfg s₀ (pre ++ [⟨closeTime, .closeVote⟩] ++ post)).tally c).toNat :=
        congrArg (fun t ↦ (t c).toNat) (congrArg Ledger.tally hfinal)
      _ = votesFor (revealOpenings (history H cfg s₀ (pre ++ [⟨closeTime, .closeVote⟩] ++ post))) c :=
        hbox.counted.tally_eq c
      _ = votesFor (validReveals H cfg (runTxs H cfg s₀ pre).ballotCommitments post) c := by
        rw [hopenings]
      _ = votesFor (castOpenings (history H cfg s₀ pre)) c := hperiod.once.countP_eq _

/-- The reveals of two votes in reverse order, with a stranger's path to nowhere in between. -/
def sampleReveals : List (Tx Term Digest) :=
  [sampleReveal 310 sampleOpenings (.no, .uint 51), sampleReveal 320 sampleOpenings (.no, .uint 77),
    sampleReveal 330 sampleOpenings (.yes, .uint 50)]

theorem every_ballot_counted_iff_sample :
    (EveryBallotCounted symbolic sampleSealed sampleInitial
        [sampleVote 110 0 2 .yes 50, sampleVote 130 1 2 .no 51] 300 sampleReveals ↔
      (castOpenings (history symbolic sampleSealed sampleInitial
        [sampleVote 110 0 2 .yes 50, sampleVote 130 1 2 .no 51])).Nodup) ∧
      castOpenings (history symbolic sampleSealed sampleInitial
        [sampleVote 110 0 2 .yes 50, sampleVote 130 1 2 .no 51]) = sampleOpenings :=
  ⟨every_ballot_counted_iff symbolic_collisionFree sampleInitial_ok (by decide)
    ⟨by decide +kernel, by simp [sampleReveals, sampleReveal], by decide +kernel⟩, by decide +kernel⟩

/-- Two voters with one choice and one salt: the second ballot cannot be revealed. -/
theorem not_every_ballot_counted :
    initialState symbolic sampleSealed = .ok sampleInitial ∧
      RevealPeriod symbolic sampleSealed sampleInitial
        [sampleVote 110 0 2 .yes 50, sampleVote 130 1 2 .yes 50]
        (List.replicate 2 (sampleReveal 310 (List.replicate 2 (.yes, .uint 50)) (.yes, .uint 50))) ∧
      ¬ EveryBallotCounted symbolic sampleSealed sampleInitial
        [sampleVote 110 0 2 .yes 50, sampleVote 130 1 2 .yes 50] 300
        (List.replicate 2 (sampleReveal 310 (List.replicate 2 (.yes, .uint 50)) (.yes, .uint 50))) := by
  refine ⟨sampleInitial_ok, ⟨by decide +kernel, by simp [sampleReveal], by decide +kernel⟩, ?_⟩
  intro hcounted
  have htally := (hcounted.counted 400 (by decide)).2 .yes
  exact absurd htally (by decide +kernel)

end MidnightReferendum.ReferendumV2
