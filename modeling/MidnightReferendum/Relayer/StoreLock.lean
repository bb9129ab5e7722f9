import MidnightReferendum.Relayer.FileStore
import MidnightReferendum.Systems.LockSafety

/-!
# The lock of the store in a file

`FileV2ActionStore.update` with `withLock`, `acquireLock`, `recoverStaleLock` and `writeAtomic`, for any number
of processes and of store objects on one file. A store object is a caller of the lock file, and its `tail` is
the promise after which its next update begins.
-/

namespace MidnightReferendum.Relayer

open Js LockFile

/-- An operation that `update` is given. -/
abbrev UpdateCall := (α : Type) × (FileState → Except StoreError α × FileState)

/-- The state is read, changed and written back, unless the operation throws. -/
def UpdateCall.apply (update : UpdateCall) (file : File) : Except StoreError (((α : Type) × α) × Json) :=
  match File.read file with
  | .error e => .error e
  | .ok state =>
    match update.2 state with
    | (.error e, _) => .error e
    | (.ok a, state) => .ok (⟨update.1, a⟩, state.serialize)

/-- The part of `recoverStaleLock` that asks for the owner. A lock of the own process is not spared. -/
def sparesOwner (self : ℕ) (isProcessAlive : ℕ → Bool) : Option ℕ → Bool
  | none => false
  | some ownerPid => ownerPid != self && isProcessAlive ownerPid

/-- The options of a store. -/
structure LockOptions where
  lockTimeoutMs : ℕ := 10000
  staleLockMs : ℕ := 30000

def storeProtocol (options : LockOptions) : Protocol UpdateCall ((α : Type) × α) Json StoreError where
  lockTimeoutMs := options.lockTimeoutMs
  staleLockMs := options.staleLockMs
  spares := sparesOwner
  contends := false
  restricts := false
  sweeps := false
  apply := UpdateCall.apply

/-- An update under the lock does to the file what the store does in one step. -/
theorem UpdateCall.apply_eq_update (update : UpdateCall) (file : File) :
    (update.apply file).toOption.map (fun written ↦ some written.2) =
      match (File.update file update.2).1 with
      | .ok _ => some (File.update file update.2).2
      | .error _ => none := by
  rw [UpdateCall.apply, File.update]
  cases File.read file with
  | error e => rfl
  | ok state =>
    dsimp only
    obtain ⟨answer | answer, state'⟩ := update.2 state <;> rfl

/-- **The lock excludes** in every run in which no recovery takes away the lock file of a store object that still
uses it: at most one store object is between `acquireLock` and the end of its release, a release removes the
lock file of its own holder, and an update replaces the state that it has read. -/
theorem store_lock_excludes (options : LockOptions) (left : Option (Option ℕ × ℕ)) (file : File)
    (es : List (Event UpdateCall))
    (hdead : ∀ e ∈ Execution.trace (step (storeProtocol options)) (start left file) es,
      RecoversDead e.1 e.2) :
    (∀ e ∈ Execution.trace (step (storeProtocol options)) (start left file) es, Excludes e.1) ∧
      Excludes (after (storeProtocol options) (start left file) es) :=
  excludes_after (owned_start left file) hdead

/-! ## Sample runs -/

/-- `consumeCapability` with a reservation of the given digest. -/
def consumeCall (digest : Char) : UpdateCall :=
  ⟨Bool, fun state ↦
    let (consumed, state) := state.consumeCapability {
      digest := List.replicate 64 digest.toNat.toUInt16
      actionId := js "a"
      idempotencyKey := js "k"
      requestHash := List.replicate 64 digest.toNat.toUInt16
      network := js "preview"
      contractAddress := js "c"
      circuit := js "castVote"
      action := .vote
      expiresAt := 0 }
    (.ok consumed, state)⟩

/-- A store object makes the next calls of the file system. -/
def turns (p : Party) (n : ℕ) : List (Event UpdateCall) := List.replicate n (.advance p)

/-- A process crashes while it holds the lock, and another process recovers the lock when it is old. -/
def crashedHolderRun : List (Event UpdateCall) :=
  .launch 1 :: .launch 2 :: .call ⟨1, 0⟩ (consumeCall 'a') :: turns ⟨1, 0⟩ 5 ++
    [.crash 1, .wait 30000, .call ⟨2, 0⟩ (consumeCall 'b')] ++ turns ⟨2, 0⟩ 14

theorem store_lock_excludes_sample :
    (∀ e ∈ Execution.trace (step (storeProtocol {})) (start none none) crashedHolderRun, Excludes e.1) ∧
      Excludes (after (storeProtocol {}) (start none none) crashedHolderRun) := by
  have hcheck : ((Execution.trace (step (storeProtocol {})) (start none none) crashedHolderRun).all
      fun e ↦ recovers [⟨1, 0⟩, ⟨2, 0⟩] e.1 e.2) = true := by
    decide +kernel
  have hcalls : (crashedHolderRun.all fun e ↦ e.calling.all fun p ↦
      p ∈ ([⟨1, 0⟩, ⟨2, 0⟩] : List Party)) = true := by
    decide +kernel
  exact store_lock_excludes {} none none crashedHolderRun (recoversDead_of_run hcalls hcheck)

/-- One store object holds the lock for longer than `staleLockMs`, and another one of the same process takes the
lock for one that a dead process has left. -/
def siblingRun : List (Event UpdateCall) :=
  .launch 1 :: .call ⟨1, 0⟩ (consumeCall 'a') :: turns ⟨1, 0⟩ 7 ++
    [.wait 30000, .call ⟨1, 1⟩ (consumeCall 'b')] ++ turns ⟨1, 1⟩ 13

/-- Both store objects hold the lock, the first is about to replace the update of the second with one of an older
state, and then it releases the lock file of the second. -/
theorem siblings_share_lock :
    let w := after (storeProtocol {}) (start none none) siblingRun
    let w' := after (storeProtocol {}) (start none none) (siblingRun ++ turns ⟨1, 0⟩ 2)
    ((w.phase ⟨1, 0⟩).holds = true ∧ (w.phase ⟨1, 1⟩).holds = true ∧
      (w.phase ⟨1, 0⟩).read?.map Option.isNone = some true ∧ w.file.isSome = true) ∧
      ((w'.phase ⟨1, 0⟩).inode? ≠ w'.lock.map Lock.inode ∧ w'.lock.isSome = true) ∧ ¬Excludes w := by
  have hboth : ((after (storeProtocol {}) (start none none) siblingRun).phase ⟨1, 0⟩).holds = true ∧
      ((after (storeProtocol {}) (start none none) siblingRun).phase ⟨1, 1⟩).holds = true ∧
      ((after (storeProtocol {}) (start none none) siblingRun).phase ⟨1, 0⟩).read?.map Option.isNone =
        some true ∧
      (after (storeProtocol {}) (start none none) siblingRun).file.isSome = true := by
    decide +kernel
  refine ⟨hboth, by decide +kernel, fun hexcludes ↦ ?_⟩
  exact absurd (hexcludes.one hboth.1 hboth.2.1) (by decide)

end MidnightReferendum.Relayer
