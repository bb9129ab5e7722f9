import Mathlib.Logic.Function.Basic
import MidnightReferendum.Systems.Execution

/-!
# Updates of a file under a lock file

Any number of callers in any number of processes update one file. A caller creates a lock file that must
not exist yet, reads the file, writes the new content to a temporary file, renames that over the file and
removes the lock file. A caller that finds a lock file takes it away if it is old and nobody seems to
own it.

Each call of the file system is one step, so an interleaving is a list of events. Any time can pass
between two steps, any call of the file system can fail, and a process can crash at any point. Files are
told apart by their inodes.
-/

namespace MidnightReferendum.LockFile

/-- What is left to an implementation. -/
structure Protocol (Op R C ε : Type*) where
  lockTimeoutMs : ℕ
  staleLockMs : ℕ
  /-- an old lock with this owner is left alone by a process with the pid `self` -/
  spares (self : ℕ) (isAlive : ℕ → Bool) (owner : Option ℕ) : Bool
  /-- refused access to the lock file counts as one that exists -/
  contends : Bool
  /-- the mode of the lock file is set by its path -/
  restricts : Bool
  /-- temporary files are removed before the file is read -/
  sweeps : Bool
  /-- an update of the content, which may be missing -/
  apply : Op → Option C → Except ε (R × C)

/-- A caller runs its updates one after the other. -/
structure Party where
  pid : ℕ
  index : ℕ
  deriving DecidableEq

structure Lock where
  inode : ℕ
  /-- the pid that has been written to the file -/
  owner : Option ℕ
  mtime : ℕ

inductive Failure (ε : Type*) where
  | operation (e : ε)
  | system
  | timeout

/-- How far a caller without the lock has come. -/
inductive Attempt where
  | opening
  | stating
  | reading
  | judging (owner : Option ℕ)
  | unlinking
  | waiting

/-- How far a caller with the lock has come, where `read` is the file that it has read. -/
inductive Stage (R C ε : Type*) where
  | listing
  | sweeping
  | loading
  | loaded (read : Option (ℕ × C))
  | staging (read : Option (ℕ × C)) (temp : ℕ) (result : R) (content : C)
  | staged (read : Option (ℕ × C)) (temp : ℕ) (result : R) (content : C)
  | committed (temp : ℕ) (result : R)
  | discarding (temp : ℕ)
  | releasing (outcome : Except (Failure ε) R)

inductive Phase (Op R C ε : Type*) where
  | idle
  | acquiring (op : Op) (deadline : ℕ) (attempt : Attempt)
  /-- the lock file with this inode is created, and then written -/
  | creating (op : Op) (inode : ℕ) (written : Bool)
  | holding (op : Op) (inode : ℕ) (stage : Stage R C ε)

/-- The file system, the processes that run, and what the callers do. -/
structure World (Op R C ε : Type*) where
  clock : ℕ
  /-- the next inode -/
  fresh : ℕ
  isAlive : ℕ → Bool
  lock : Option Lock
  file : Option (ℕ × C)
  temps : List ℕ
  phase : Party → Phase Op R C ε
  /-- the updates that wait for the one before them -/
  tail : Party → List Op
  /-- the temporary files that a caller has begun to remove -/
  removals : Party → List ℕ
  settled : List (Op × Except (Failure ε) R)

inductive Event (Op : Type*) where
  | call (p : Party) (op : Op)
  /-- the next call of the file system is made -/
  | advance (p : Party)
  /-- the next call of the file system fails -/
  | fail (p : Party)
  /-- access to the lock file is refused -/
  | contend (p : Party)
  | remove (p : Party) (temp : ℕ)
  | launch (pid : ℕ)
  | crash (pid : ℕ)
  | wait (ms : ℕ)

variable {Op R C ε : Type*}

/-- The update that is called. -/
def Event.op? : Event Op → Option Op
  | .call _ op => some op
  | _ => none

namespace World

variable (w : World Op R C ε) (p : Party)

/-- The caller comes to a phase. -/
def move (f : Phase Op R C ε) : World Op R C ε := { w with phase := Function.update w.phase p f }

/-- The updates that ended with a result. -/
def results : List (Op × R) := w.settled.filterMap fun s ↦ s.2.toOption.map (s.1, ·)

/-- The update of the caller ends. -/
def settle (op : Op) (outcome : Except (Failure ε) R) : World Op R C ε :=
  { w.move p .idle with settled := w.settled ++ [(op, outcome)] }

end World

section Steps

variable (P : Protocol Op R C ε) (w : World Op R C ε) (p : Party)

def attempt (op : Op) (deadline : ℕ) : Attempt → World Op R C ε
  | .opening =>
    match w.lock with
    | none =>
      { w with lock := some ⟨w.fresh, none, w.clock⟩, fresh := w.fresh + 1 }.move p
        (.creating op w.fresh false)
    | some _ => w.move p (.acquiring op deadline .stating)
  | .stating =>
    match w.lock with
    | none => w.move p (.acquiring op deadline .opening)
    | some lock =>
      w.move p (.acquiring op deadline
        (if w.clock < lock.mtime + P.staleLockMs then .waiting else .reading))
  | .reading => w.move p (.acquiring op deadline (.judging (w.lock.bind Lock.owner)))
  | .judging owner =>
    w.move p (.acquiring op deadline
      (if P.spares p.pid w.isAlive owner then .waiting else .unlinking))
  | .unlinking => { w with lock := none }.move p (.acquiring op deadline .opening)
  | .waiting =>
    if deadline ≤ w.clock then w.settle p op (.error .timeout)
    else w.move p (.acquiring op deadline .opening)

/-- The lock file is written through its handle, whatever is at its path. -/
def create (op : Op) (inode : ℕ) (written : Bool) : World Op R C ε :=
  if !written then
    { w with lock := w.lock.map fun (lock : Lock) ↦
        if lock.inode = inode then { lock with owner := some p.pid, mtime := w.clock } else lock }.move p
      (.creating op inode true)
  else if P.restricts && w.lock.isNone then w.settle p op (.error .system)
  else w.move p (.holding op inode (if P.sweeps then .listing else .loading))

def perform (op : Op) (inode : ℕ) : Stage R C ε → Option (World Op R C ε)
  | .listing =>
    some ({ w with removals := Function.update w.removals p (w.removals p ++ w.temps) }.move p
      (.holding op inode .sweeping))
  | .sweeping =>
    if (w.removals p).isEmpty then some (w.move p (.holding op inode .loading)) else none
  | .loading => some (w.move p (.holding op inode (.loaded w.file)))
  | .loaded read =>
    match P.apply op (read.map Prod.snd) with
    | .error e => some (w.move p (.holding op inode (.releasing (.error (.operation e)))))
    | .ok (result, content) =>
      some ({ w with temps := w.fresh :: w.temps, fresh := w.fresh + 1 }.move p
        (.holding op inode (.staging read w.fresh result content)))
  | .staging read temp result content =>
    some (w.move p (.holding op inode (.staged read temp result content)))
  | .staged _ temp result content =>
    if temp ∈ w.temps then
      some ({ w with file := some (temp, content), temps := w.temps.erase temp }.move p
        (.holding op inode (.committed temp result)))
    else some (w.move p (.holding op inode (.discarding temp)))
  | .committed _ result => some (w.move p (.holding op inode (.releasing (.ok result))))
  | .discarding temp =>
    some ({ w with temps := w.temps.erase temp }.move p
      (.holding op inode (.releasing (.error .system))))
  | .releasing outcome => some ({ w with lock := none }.settle p op outcome)

/-- The next step of a caller. -/
def advance : Option (World Op R C ε) :=
  match w.phase p with
  | .idle =>
    match w.tail p with
    | [] => none
    | op :: rest =>
      some ({ w with tail := Function.update w.tail p rest }.move p
        (.acquiring op (w.clock + P.lockTimeoutMs) .opening))
  | .acquiring op deadline a => some (attempt P w p op deadline a)
  | .creating op inode written => some (create P w p op inode written)
  | .holding op inode stage => perform P w p op inode stage

/-- The next call of the file system fails. -/
def fault : Option (World Op R C ε) :=
  match w.phase p with
  | .idle => none
  | .acquiring op _ .opening => some (w.settle p op (.error .system))
  | .acquiring op deadline .stating => some (w.move p (.acquiring op deadline .waiting))
  | .acquiring op deadline .reading => some (w.move p (.acquiring op deadline (.judging none)))
  | .acquiring _ _ (.judging _) => none
  | .acquiring op deadline .unlinking => some (w.move p (.acquiring op deadline .waiting))
  | .acquiring _ _ .waiting => none
  | .creating op _ _ => some (w.settle p op (.error .system))
  | .holding op inode stage =>
    match stage with
    | .listing | .sweeping | .loading | .loaded _ | .discarding _ =>
      some (w.move p (.holding op inode (.releasing (.error .system))))
    | .staging _ temp _ _ | .staged _ temp _ _ | .committed temp _ =>
      some (w.move p (.holding op inode (.discarding temp)))
    | .releasing _ => some (w.settle p op (.error .system))

/-- Refused access to the lock file is taken for a lock file that exists. -/
def contend : Option (World Op R C ε) :=
  match w.phase p with
  | .acquiring op deadline .opening =>
    if P.contends then some (w.move p (.acquiring op deadline .stating)) else none
  | _ => none

/-- A process ends with everything that its callers do. -/
def crash (pid : ℕ) : World Op R C ε :=
  { w with
    isAlive := Function.update w.isAlive pid false
    phase := fun p ↦ if p.pid = pid then .idle else w.phase p
    tail := fun p ↦ if p.pid = pid then [] else w.tail p
    removals := fun p ↦ if p.pid = pid then [] else w.removals p }

/-- One event, if it is enabled. -/
def step : Event Op → Except Unit (World Op R C ε)
  | .call p op =>
    if w.isAlive p.pid then .ok { w with tail := Function.update w.tail p (w.tail p ++ [op]) }
    else .error ()
  | .advance p => if w.isAlive p.pid then (advance P w p).elim (.error ()) .ok else .error ()
  | .fail p => if w.isAlive p.pid then (fault w p).elim (.error ()) .ok else .error ()
  | .contend p => if w.isAlive p.pid then (contend P w p).elim (.error ()) .ok else .error ()
  | .remove p temp =>
    if temp ∈ w.removals p then .ok { w with
      temps := w.temps.erase temp
      removals := Function.update w.removals p ((w.removals p).erase temp) }
    else .error ()
  | .launch pid =>
    if w.isAlive pid then .error () else .ok { w with isAlive := Function.update w.isAlive pid true }
  | .crash pid => .ok (crash w pid)
  | .wait ms => .ok { w with clock := w.clock + ms }

end Steps

/-- No process runs, the lock file and the file may have been left behind. -/
def start (lock : Option (Option ℕ × ℕ)) (content : Option C) : World Op R C ε where
  clock := 0
  fresh := 2
  isAlive := fun _ ↦ false
  lock := lock.map fun left ↦ ⟨0, left.1, left.2⟩
  file := content.map fun content ↦ (1, content)
  temps := []
  phase := fun _ ↦ .idle
  tail := fun _ ↦ []
  removals := fun _ ↦ []
  settled := []

/-- The world after the events. -/
abbrev after (P : Protocol Op R C ε) (w : World Op R C ε) (es : List (Event Op)) : World Op R C ε :=
  Execution.run (step P) w es

end MidnightReferendum.LockFile
