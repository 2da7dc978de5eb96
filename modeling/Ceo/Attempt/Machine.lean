import Ceo.Attempt.Drive

/-!
# The daemon as a machine

The state directory, the calls answered over it, and the daemon's life: the
startup sequence drives the attempt once and flushes the outbox, the main loop
drives the attempt while there is one, flushes the outbox while it is not
empty, and claims a job otherwise. The daemon may stop inside any call or
between two; a call that fails for the daemon may still have reached the disk.
The adapter, the coordinator and the clock answer anything.

A project command that converges a cancelled attempt writes its history and
removes the attempt under the same lock (`check_active_attempt_target_in_use_
converged`); it shows up between two calls of the daemon.
-/

namespace Ceo.Attempt

open Ceo.Lib Ceo.Jobs
open Ceo.Connector (Phase)

/-- A call with its answer, if it came back. -/
inductive Entry where
  | call (e : Call) (answer : Option (Answer e))
  /-- The daemon stopped. -/
  | stopped

structure World where
  /-- `active-attempt.json`; the daemon reads it through `ActiveAttempt.load`. -/
  active : Option ActiveAttempt
  outbox : List OutboxRecord
  history : List HistoryRecord
  locked : Bool
  /-- The ids of the attempts saved so far; the id of a new one is a fresh UUID. -/
  used : List String
  /-- The calls so far, the last one first. -/
  log : List Entry

/-- What the surroundings choose when they answer a call. -/
inductive Reply where
  | ok
  /-- A lock that is taken, or a call that fails although it may have got to the disk. -/
  | fail (written : Bool)
  | time (nowMs : Nat)
  | config (r : Except String (Option LocalTarget))
  | prepare (r : Except String PrepareOutcome)
  | baseline (r : Except String (Option Int))
  | reconcile (r : Except String DispatchReconciliation)
  | dispatch (r : Except String DispatchOutcome)
  | wait (r : Except String WaitOutcome)
  | close (r : CleanupOutcome)
  | captured (r : Except ManagedResultError CapturedManagedResult)
  | claim (r : Except ClientError ClaimJobResponse)
  | start (r : Except ClientError JobMutationAck)
  | detail (r : Except ClientError JobDetail)
  | ack (r : Except ClientError Unit)
  | candidate (intent : Option ActiveAttempt)

def freshIntent (dev : Device) (jobId workspaceId targetId attemptId claimToken : String)
    (frozenAgentId : Option String) : ActiveAttempt where
  schemaVersion := activeAttemptSchemaVersion
  serverOrigin := dev.serverOrigin
  deviceId := dev.deviceId
  jobId := jobId
  workspaceId := workspaceId
  targetId := targetId
  attemptId := attemptId
  claimToken := claimToken
  phase := .claimIntent
  resourceId := none
  prompt := none
  acceptance := none
  executionTimeoutSeconds := none
  resultTarget := none
  payloadSha256 := none
  claimedAtMs := none
  terminalReportSha256 := none
  frozenAgentId := frozenAgentId
  executor := none

/-- The claim intent of a candidate has nothing but its identity. -/
def isFreshIntent (dev : Device) (a : ActiveAttempt) : Bool :=
  a == freshIntent dev a.jobId a.workspaceId a.targetId a.attemptId a.claimToken a.frozenAgentId

namespace World

def record (w : World) (e : Call) (r : Answer e) : World := { w with log := .call e (some r) :: w.log }

def key (j a : String) (o : OutboxRecord) : Bool := o.jobId == j && o.attemptId == a

def outboxFile (w : World) (j a : String) : Option OutboxRecord := w.outbox.find? (key j a)

def historyFile (w : World) (j a : String) : Option HistoryRecord :=
  w.history.find? fun h => h.jobId == j && h.attemptId == a

def putOutbox (w : World) (o : OutboxRecord) : World :=
  { w with outbox := o :: w.outbox.filter fun x => !key o.jobId o.attemptId x }

def dropOutbox (w : World) (j a : String) : World :=
  { w with outbox := w.outbox.filter fun x => !key j a x }

def putHistory (w : World) (h : HistoryRecord) : World := { w with history := h :: w.history }

end World

section

variable (dev : Device)

def loadFile (w : World) : Except String (Option ActiveAttempt) :=
  match w.active with
  | none => .ok none
  | some a =>
    match a.load dev.toHost with
    | .error e => .error e
    | .ok b => .ok (some b)

def ioError : String := "IO error"

/-- The answer to a call. -/
def answer (w : World) : (e : Call) → Reply → Option (Answer e)
  | .lock, .ok => if w.locked then none else some true
  | .lock, .fail _ => some false
  | .unlock, .ok => some ()
  | .activeExists, .ok => some w.active.isSome
  | .loadActive, .ok => some (loadFile dev w)
  | .loadActive, .fail _ => some (.error ioError)
  | .saveActive a, .ok => some (a.validate dev.toHost)
  | .saveActive a, .fail _ => some (a.validate dev.toHost >>= fun _ => .error ioError)
  | .removeActive, .ok => some true
  | .removeActive, .fail _ => some false
  | .listOutbox, .ok => some (.ok (w.outbox.map fun o => (o.jobId, o.attemptId)))
  | .listOutbox, .fail _ => some (.error ioError)
  | .outboxExists j a, .ok => some (w.outboxFile j a).isSome
  | .loadOutbox j a, .ok =>
    match w.outboxFile j a with
    | none => some (.error ioError)
    | some o => some (o.report.validate.map fun _ => o)
  | .loadOutbox _ _, .fail _ => some (.error ioError)
  | .saveOutbox o, .ok => some o.report.validate
  | .saveOutbox o, .fail _ => some (o.report.validate >>= fun _ => .error ioError)
  | .removeOutbox _ _, .ok => some true
  | .removeOutbox _ _, .fail _ => some false
  | .loadHistory j a, .ok => some (.ok (w.historyFile j a))
  | .loadHistory _ _, .fail _ => some (.error ioError)
  | .saveHistory _, .ok => some true
  | .saveHistory _, .fail _ => some false
  | .ensureRuntimeDir _, .ok => some true
  | .ensureRuntimeDir _, .fail _ => some false
  | .persistRedeliveryMeta _, .ok => some true
  | .persistRedeliveryMeta _, .fail _ => some false
  | .preservedExists _ _, .ok => some true
  | .preservedExists _ _, .fail _ => some false
  | .loadConfig _, .config r => some r
  | .nowUtcMs, .time nowMs => some (nowMs : Int)
  | .isReady, .ok => some true
  | .isReady, .fail _ => some false
  | .prepare _ _, .prepare r => some r
  | .agentStatusBaseline _, .baseline r => some r
  | .reconcileDispatch _ _, .reconcile r => some r
  | .dispatch _ _, .dispatch r => some r
  | .wait _ _, .wait r => some r
  | .interrupt _ _, .ok => some ()
  | .close _, .close r => some r
  | .captureManagedResult _, .captured r => some r
  | .readPreserved _, .captured r => some r
  | .claimJob _ _ _, .claim r => some r
  | .startJob _ _ _, .start r => some r
  | .getJob _, .detail r => some r
  | .submitJobResult _, .ack r => some r
  | .reportJob _, .ack r => some r
  | .poll, .candidate none => some none
  | .poll, .candidate (some a) =>
    if isFreshIntent dev a && !w.used.contains a.attemptId then some (some a) else none
  | _, _ => none

/-- Whether a file call gets to the disk. -/
def Reply.writes : Reply → Bool
  | .ok => true
  | .fail written => written
  | _ => false

/-- What a call does to the state directory. A record that does not pass its checks is not
written. -/
def effect (w : World) : Call → Reply → World
  | .lock, .ok => { w with locked := true }
  | .unlock, _ => { w with locked := false }
  | .saveActive a, x =>
    if (a.validate dev.toHost).isOk && x.writes then
      { w with active := some a, used := a.attemptId :: w.used }
    else w
  | .removeActive, x => if x.writes then { w with active := none } else w
  | .saveOutbox o, x => if o.report.validate.isOk && x.writes then w.putOutbox o else w
  | .removeOutbox j a, x => if x.writes then w.dropOutbox j a else w
  | .saveHistory h, x => if x.writes then w.putHistory h else w
  | _, _ => w

def serve (w : World) (e : Call) (x : Reply) : Option (Answer e × World) :=
  (answer dev w e x).map fun r => (r, (effect dev w e x).record e r)

/-- The project command: the history of the cancel, then the removal of the attempt. -/
inductive Project where
  | writeHistory (nowMs : Int)
  | removeActive
  deriving DecidableEq, Repr

def isCancelledHistory (a : ActiveAttempt) (h : HistoryRecord) : Bool :=
  h.jobId == a.jobId && h.attemptId == a.attemptId &&
    h.terminalReportSha256 == dev.operatorCancelDigest a.jobId a.attemptId

def project (w : World) : Project → Option World
  | .writeHistory nowMs =>
    match w.locked, loadFile dev w with
    | false, .ok (some a) =>
      some (w.putHistory (cancelledHistory dev a.jobId a.attemptId a.targetId nowMs))
    | _, _ => none
  | .removeActive =>
    match w.locked, loadFile dev w with
    | false, .ok (some a) =>
      if (w.historyFile a.jobId a.attemptId).any (isCancelledHistory dev a) then
        some { w with active := none }
      else none
    | _, _ => none

def surroundings : Surroundings World Call Answer Reply Project where
  serve := serve dev
  lose w e := { w with log := .call e none :: w.log }
  stop w := { w with locked := false, log := .stopped :: w.log }
  surround := project dev

/-! ### the daemon's life -/

inductive Out where
  | drove (startup : Bool) (turn : Turn)
  | flushed
  | idle
  deriving DecidableEq, Repr

def flush : Prog Out := do
  let _ ← flushOutbox dev
  return .flushed

def driveOnce (startup : Bool) : Prog Out := do
  let turn ← driveActiveAttempt dev
  return .drove startup turn

/-- Active attempt recovery, then outbox recovery. -/
def startup : Prog Out := do
  match ← call .activeExists with
  | true => driveOnce dev true
  | false => flush dev

/-- The claim intent is on disk before the claim goes out. -/
def claimNext : Prog Out := do
  match ← call .poll with
  | none => return .idle
  | some intent =>
    let saved ← withLock (Except.error Out.idle) do
      match ← call .loadActive with
      | .error e => return .error (.drove false (.failed (.scheduler e)))
      | .ok (some _) => return .error .idle
      | .ok none => save (fun e => .error (.drove false (.failed e))) intent (.ok ())
    match saved with
    | .error out => return out
    | .ok () => driveOnce dev false

/-- One iteration of the main polling loop. -/
def mainLoop : Prog Out := do
  match ← call .activeExists with
  | true => driveOnce dev false
  | false =>
    match ← call .listOutbox with
    | .ok (_ :: _) => flush dev
    | .ok [] | .error _ => claimNext dev

def nextRound (startup : Bool) (l : WaitLoop) : Prog Out := do
  let turn ← waitRound dev l
  return .drove startup turn

def resume : Out → Option (Prog Out)
  | .drove startup (.waiting l) => some (nextRound dev startup l)
  | .drove _ (.failed _) => none
  | .drove true (.ok _) => some (flush dev)
  | .drove false (.ok _) | .flushed | .idle => some (mainLoop dev)

/-- The daemon of a device whose state directory starts as `Init` says. -/
def daemon (Init : World → Prop) : Machine World Call Answer Reply Project Out where
  toSurroundings := surroundings dev
  Init := Init
  boot := startup dev
  resume := resume dev

end

/-- An empty state directory. -/
def World.empty : World := ⟨none, [], [], false, [], []⟩

end Ceo.Attempt
