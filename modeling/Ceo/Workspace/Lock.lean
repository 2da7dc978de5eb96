import Ceo.Lib.Transition
import Mathlib.Logic.Function.Basic

/-!
# The workspace lock

`acquireAndRunLock` and what it calls (`workspace.ts`), one file system step
or one uninterrupted stretch of JavaScript at a time. The lock is a directory;
`owner.json` in it says who holds it, and a map in each process says which
acquisition of that process is registered. Processes share the file system
and the clock.
-/

namespace Ceo.Workspace.Lock

open Ceo.Lib Function

def lockSetupGraceMs : Nat := 5000

/-! ### the parties -/

/-- One call of `acquireAndRunLock`, by a process. It makes at most one lock directory, whose
lock id stands for the call. -/
structure Op where
  proc : Nat
  n : Nat
  deriving DecidableEq, Repr

/-- Where a call stands. -/
inductive Phase where
  | idle
  | entering (allowStaleRetry : Bool)
  /-- `mkdir` failed with `EEXIST`. -/
  | refused (allowStaleRetry : Bool)
  /-- It awaits the recovery of its process. -/
  | awaiting
  | recovered (ok : Bool)
  /-- The directory is made, `owner.json` is not there. -/
  | made
  /-- `owner.json` is open and incomplete. -/
  | writing
  /-- `owner.json` is complete, the call is not registered yet. -/
  | written
  | running
  /-- Unregistered; `releaseOwnedLock` has yet to read `owner.json`. -/
  | releasing
  /-- About to `rm` the directory, which empties it first. -/
  | unlinking
  | removing
  | done
  deriving DecidableEq, Repr

namespace Phase

/-- The call has a directory it has not let go of. -/
def holds : Phase → Bool
  | made | writing | written | running | releasing | unlinking | removing => true
  | _ => false

/-- The call has not made a directory yet. -/
def waits : Phase → Bool
  | idle | entering _ | refused _ | awaiting | recovered _ => true
  | _ => false

end Phase

/-- What `owner.json` holds: nothing, the start of a call's metadata, or all of it. -/
inductive OwnerFile where
  | absent
  | opened (o : Op)
  | written (o : Op)
  deriving DecidableEq, Repr

/-- The lock directory, with the call that made it. -/
structure Dir where
  gen : Nat
  maker : Op
  mtimeMs : Nat
  owner : OwnerFile
  deriving DecidableEq, Repr

/-- The recovery a process is in; `seen` is the directory it inspected. -/
inductive Recovery where
  | reading
  | stating
  | aging (mtimeMs seen : Nat)
  | judging (owner : Op) (seen : Nat)
  | rechecking (expected : Option Op) (seen : Nat)
  | unlinking (seen : Nat)
  | removing (seen : Nat)
  deriving DecidableEq, Repr

structure World where
  nowMs : Nat
  nextGen : Nat
  dir : Option Dir
  phase : Op → Phase
  /-- `ACTIVE_WORKSPACE_LOCKS` of each process. -/
  active : Nat → Option Op
  /-- `STALE_RECOVERY_BY_LOCK_DIR` of each process. -/
  recovery : Nat → Option Recovery
  dead : Nat → Bool

namespace World

def init : World where
  nowMs := 0
  nextGen := 0
  dir := none
  phase _ := .idle
  active _ := none
  recovery _ := none
  dead _ := false

def setPhase (w : World) (o : Op) (ph : Phase) : World := { w with phase := update w.phase o ph }

def setDir (w : World) (d : Option Dir) : World := { w with dir := d }

def setRecovery (w : World) (p : Nat) (r : Option Recovery) : World :=
  { w with recovery := update w.recovery p r }

/-- The recovery of a process ends, and every call that awaits it gets its answer. -/
def settle (w : World) (p : Nat) (ok : Bool) : World :=
  { w with
    recovery := update w.recovery p none
    phase := fun o =>
      if o.proc = p ∧ w.phase o = .awaiting then .recovered ok else w.phase o }

/-- The call holds the lock, in a process that is alive. -/
def Live (w : World) (o : Op) : Prop := w.dead o.proc = false ∧ (w.phase o).holds = true

/-- The call's operation is running. -/
def Runs (w : World) (o : Op) : Prop := w.dead o.proc = false ∧ w.phase o = .running

end World

/-! ### the steps -/

inductive OwnerRead where
  | missing | invalid | owner (o : Op)
  deriving DecidableEq, Repr

/-- `readJson` of `owner.json`: null when it is not there, a `SyntaxError` when it is incomplete. -/
def readOwner : Option Dir → OwnerRead
  | none => .missing
  | some d =>
    match d.owner with
    | .absent => .missing
    | .opened _ => .invalid
    | .written o => .owner o

/-- What the second look has to find, by `expectedLockId`. -/
def expectedRead : Option Op → OwnerRead
  | none => .missing
  | some o => .owner o

/-- The first step of `rm`: the entry goes, which touches the directory. -/
def Dir.unlinked (d : Dir) (nowMs : Nat) : Dir :=
  if d.owner = .absent then d else { d with owner := .absent, mtimeMs := nowMs }

/-- `rmdir`, which a directory with an entry refuses. -/
def rmdir : Option Dir → Option Dir
  | none => none
  | some d => if d.owner = .absent then none else some d

/-- `open` of `owner.json` for writing: a new entry touches the directory. -/
def Dir.openedBy (d : Dir) (o : Op) (nowMs : Nat) : Dir :=
  { d with owner := .opened o, mtimeMs := if d.owner = .absent then nowMs else d.mtimeMs }

/-- The rest of the write goes to the file that was opened, if it is still there. -/
def Dir.writtenBy (d : Dir) (o : Op) : Dir :=
  if d.owner = .opened o then { d with owner := .written o } else d

inductive OpAct where
  | call | createLockDir | catchBusy | resume | openOwner | writeOwner | enter | finish | readOwner
  | unlink | rmdir
  /-- The file system refuses the step. -/
  | fail
  deriving DecidableEq, Repr

/-- `acquireAndRunLock` and `releaseOwnedLock`. -/
def opNext (w : World) (o : Op) : OpAct → Option World
  | .call =>
    match w.phase o with
    | .idle => some (w.setPhase o (.entering true))
    | _ => none
  | .createLockDir =>
    match w.phase o with
    | .entering allowStaleRetry =>
      match w.dir with
      | some _ => some (w.setPhase o (.refused allowStaleRetry))
      | none =>
        some ({ w with
          dir := some ⟨w.nextGen, o, w.nowMs, .absent⟩
          nextGen := w.nextGen + 1 }.setPhase o .made)
    | _ => none
  | .catchBusy =>
    match w.phase o with
    | .refused true =>
      -- `recoverStaleLockSerialized`: join the recovery of the process or start one
      some ((if (w.recovery o.proc).isNone then w.setRecovery o.proc (some .reading) else w).setPhase
        o .awaiting)
    | .refused false => some (w.setPhase o .done)
    | _ => none
  | .resume =>
    match w.phase o with
    | .recovered ok => some (w.setPhase o (if ok then .entering false else .done))
    | _ => none
  | .openOwner =>
    match w.phase o with
    | .made =>
      match w.dir with
      | none => some (w.setPhase o .unlinking)
      | some d => some ((w.setDir (some (d.openedBy o w.nowMs))).setPhase o .writing)
    | _ => none
  | .writeOwner =>
    match w.phase o with
    | .writing => some ((w.setDir (w.dir.map (·.writtenBy o))).setPhase o .written)
    | _ => none
  | .enter =>
    match w.phase o with
    | .written => some ({ w with active := update w.active o.proc (some o) }.setPhase o .running)
    | _ => none
  | .finish =>
    match w.phase o with
    | .running =>
      some ({ w with
        active := if w.active o.proc = some o then update w.active o.proc none else w.active }.setPhase
          o .releasing)
    | _ => none
  | .readOwner =>
    match w.phase o with
    | .releasing =>
      some (w.setPhase o (if Lock.readOwner w.dir = .owner o then .unlinking else .done))
    | _ => none
  | .unlink =>
    match w.phase o with
    | .unlinking => some ((w.setDir (w.dir.map (·.unlinked w.nowMs))).setPhase o .removing)
    | _ => none
  | .rmdir =>
    match w.phase o with
    | .removing => some ((w.setDir (Lock.rmdir w.dir)).setPhase o .done)
    | _ => none
  | .fail =>
    match w.phase o with
    | .entering _ => some (w.setPhase o .done)
    -- a setup that fails is cleaned up without a look at the owner
    | .made | .writing => some (w.setPhase o .unlinking)
    | .releasing | .unlinking | .removing => some (w.setPhase o .done)
    | _ => none

inductive RecAct where
  | start | inspect | stat
  /-- The decision on a directory without a readable owner. -/
  | age
  /-- The decision on an owner; `esrch` is what `process.kill(pid, 0)` says of a foreign one. -/
  | judge (esrch : Bool)
  | recheck | unlink | rmdir
  | fail
  deriving DecidableEq, Repr

/-- `inspectStaleLock` and `reclaimStaleLock`, in the recovery of process `p`. -/
def recNext (w : World) (p : Nat) : RecAct → Option World
  | .start =>
    match w.recovery p with
    | none => some (w.setRecovery p (some .reading))
    | some _ => none
  | .inspect =>
    match w.recovery p, readOwner w.dir, w.dir with
    | some .reading, .owner o, some d => some (w.setRecovery p (some (.judging o d.gen)))
    | some .reading, _, _ => some (w.setRecovery p (some .stating))
    | _, _, _ => none
  | .stat =>
    match w.recovery p with
    | some .stating =>
      match w.dir with
      | none => some (w.settle p false)
      | some d => some (w.setRecovery p (some (.aging d.mtimeMs d.gen)))
    | _ => none
  | .age =>
    match w.recovery p with
    | some (.aging mtimeMs seen) =>
      if w.nowMs - mtimeMs < lockSetupGraceMs then some (w.settle p false)
      else some (w.setRecovery p (some (.rechecking none seen)))
    | _ => none
  | .judge esrch =>
    match w.recovery p with
    | some (.judging o seen) =>
      if o.proc = p then
        if w.active p = some o then some (w.settle p false)
        else some (w.setRecovery p (some (.rechecking (some o) seen)))
      else if esrch then
        -- there is no such process only when the owner's has died
        if w.dead o.proc then some (w.setRecovery p (some (.rechecking (some o) seen))) else none
      else some (w.settle p false)
    | _ => none
  | .recheck =>
    match w.recovery p with
    | some (.rechecking expected seen) =>
      if readOwner w.dir = expectedRead expected then
        some (w.setRecovery p (some (.unlinking seen)))
      else some (w.settle p false)
    | _ => none
  | .unlink =>
    match w.recovery p with
    | some (.unlinking seen) =>
      some ((w.setDir (w.dir.map (·.unlinked w.nowMs))).setRecovery p (some (.removing seen)))
    | _ => none
  | .rmdir =>
    match w.recovery p with
    | some (.removing _) =>
      some ((w.setDir (Lock.rmdir w.dir)).settle p (Lock.rmdir w.dir).isNone)
    | _ => none
  | .fail =>
    match w.recovery p with
    | some .reading => some (w.setRecovery p (some .stating))
    | some .stating | some (.rechecking _ _) | some (.unlinking _) | some (.removing _) =>
      some (w.settle p false)
    | _ => none

inductive Event where
  | tick (ms : Nat)
  | crash (p : Nat)
  | op (o : Op) (a : OpAct)
  | recovery (p : Nat) (a : RecAct)
  deriving DecidableEq, Repr

/-- A dead process takes no step. -/
def next (w : World) : Event → Option World
  | .tick ms => some { w with nowMs := w.nowMs + ms }
  | .crash p => some { w with dead := update w.dead p true }
  | .op o a => if w.dead o.proc then none else opNext w o a
  | .recovery p a => if w.dead p then none else recNext w p a

def system : LTS World Event := .ofOption (· = World.init) next

end Ceo.Workspace.Lock
