import Ceo.Attempt.Report
import Ceo.Lib.Program

/-!
# What the daemon calls

The calls of `drive_active_attempt`, `deliver_outbox_record` and the main
loop: the lock and the files of the state directory, the clock, the execution
adapter and the coordinator. An answer has the type the source gives it, less
what no branch looks at. A file call that fails answers an error or `false`.
-/

namespace Ceo.Attempt

open Ceo.Lib Ceo.Jobs
open Ceo.Connector (Phase)

structure LocalExecutorConfig where
  agentId : String
  command : Option String
  deriving DecidableEq, Repr

structure LocalTarget where
  localPath : String
  executor : Option LocalExecutorConfig
  deriving DecidableEq, Repr

/-! ### the adapter -/

structure PreparedDispatchEvidence where
  requestId : String
  acceptedAtMs : Int
  turnStarted : Bool
  deriving DecidableEq, Repr

structure PreparedExecutionIdentity where
  orcaVersion : String
  worktreeId : String
  terminalId : String
  agentId : String
  deriving DecidableEq, Repr

structure PreparedExecution extends PreparedExecutionIdentity where
  agentReadyAtMs : Option Int
  dispatch : Option PreparedDispatchEvidence
  deriving DecidableEq, Repr

inductive PrepareOutcome where
  | ready (prep : PreparedExecution)
  | notReady (execution : PreparedExecutionIdentity) (reason : String)
  | retryable (execution : Option PreparedExecutionIdentity) (reason : String)
  | recoveryRequired (execution : Option PreparedExecutionIdentity) (reason : String)
  deriving DecidableEq, Repr

inductive DispatchReconciliation where
  | accepted (requestId : String)
  | definitelyNotDispatched
  | ambiguous
  deriving DecidableEq, Repr

inductive DispatchOutcome where
  | accepted (requestId : String) (acceptedAtMs : Int) (turnStarted : Bool)
  | knownRejectedBeforeAcceptance (reason : String)
  | ambiguousTransportFailure (error : String)
  | recoveryRequired (code message : String)
  deriving DecidableEq, Repr

inductive WaitOutcome where
  | agentDone
  | tuiIdle
  | workingObserved
  | agentSeen
  | timedOut
  | interrupted (reason : String)
  deriving DecidableEq, Repr

inductive CleanupOutcome where
  | verifiedClosed (closedAtMs : Int)
  | alreadyAbsent (verifiedAtMs : Int)
  | retryable (reason : String)
  | recoveryRequired (code message : String)
  deriving DecidableEq, Repr

/-- `ManagedResultError`: a missing file, or any other failure with its text. -/
inductive ManagedResultError where
  | notFound
  | other (text : String)
  deriving DecidableEq, Repr

/-! ### the coordinator -/

/-- `ClientError`; the last two are answers the connector does not expect, with their text. -/
inductive ClientError where
  | unauthorized
  | serverUnavailable (message : String)
  | jobError (code message : String)
  | http (message : String)
  | other (message : String)
  deriving DecidableEq, Repr

structure ClaimedJobWire where
  jobId : String
  workspaceId : String
  targetId : String
  resourceId : Option String
  prompt : String
  acceptance : String
  timeoutSeconds : Nat
  resultTarget : String
  deriving DecidableEq, Repr

structure ClaimJobResponse where
  ok : Bool
  serverTime : String
  attemptId : String
  attemptPhase : String
  claimedAt : String
  job : ClaimedJobWire
  deriving DecidableEq, Repr

structure JobMutationAck where
  ok : Bool
  serverTime : String
  deriving DecidableEq, Repr

structure JobExecutionPart where
  attemptId : String
  phase : String
  startedAt : Option String
  deriving DecidableEq, Repr

structure JobDetail where
  state : String
  executionStatus : Option String
  execution : Option JobExecutionPart
  deriving DecidableEq, Repr

/-! ### the calls -/

inductive Call where
  /-- `ExecutionLock::acquire_with_retry` of `state.lock`. -/
  | lock
  | unlock
  | activeExists
  | loadActive
  | saveActive (a : ActiveAttempt)
  | removeActive
  | listOutbox
  | outboxExists (jobId attemptId : String)
  | loadOutbox (jobId attemptId : String)
  | saveOutbox (record : OutboxRecord)
  | removeOutbox (jobId attemptId : String)
  | loadHistory (jobId attemptId : String)
  | saveHistory (history : HistoryRecord)
  | loadConfig (targetId : String)
  | ensureRuntimeDir (attemptId : String)
  | nowUtcMs
  | isReady
  | prepare (attempt : ActiveAttempt) (target : LocalTarget)
  | agentStatusBaseline (terminalId : String)
  | reconcileDispatch (attempt : ActiveAttempt) (terminalId : String)
  | dispatch (attempt : ActiveAttempt) (terminalId : String)
  | wait (attempt : ActiveAttempt) (terminalId : String)
  | interrupt (attempt : ActiveAttempt) (terminalId : String)
  | close (terminalId : String)
  | persistRedeliveryMeta (attempt : ActiveAttempt)
  | captureManagedResult (attempt : ActiveAttempt)
  | preservedExists (jobId attemptId : String)
  | readPreserved (attempt : ActiveAttempt)
  | claimJob (jobId attemptId claimToken : String)
  | startJob (jobId attemptId claimToken : String)
  | getJob (jobId : String)
  | submitJobResult (record : OutboxRecord)
  | reportJob (record : OutboxRecord)
  /-- The main loop looks for a job to claim, and makes up an attempt for it. -/
  | poll
  deriving DecidableEq, Repr

def Answer : Call → Type
  | .lock => Bool
  | .unlock => Unit
  | .activeExists => Bool
  | .loadActive => Except String (Option ActiveAttempt)
  | .saveActive _ => Except String Unit
  | .removeActive => Bool
  | .listOutbox => Except String (List (String × String))
  | .outboxExists _ _ => Bool
  | .loadOutbox _ _ => Except String OutboxRecord
  | .saveOutbox _ => Except String Unit
  | .removeOutbox _ _ => Bool
  | .loadHistory _ _ => Except String (Option HistoryRecord)
  | .saveHistory _ => Bool
  | .loadConfig _ => Except String (Option LocalTarget)
  | .ensureRuntimeDir _ => Bool
  | .nowUtcMs => Int
  | .isReady => Bool
  | .prepare _ _ => Except String PrepareOutcome
  | .agentStatusBaseline _ => Except String (Option Int)
  | .reconcileDispatch _ _ => Except String DispatchReconciliation
  | .dispatch _ _ => Except String DispatchOutcome
  | .wait _ _ => Except String WaitOutcome
  | .interrupt _ _ => Unit
  | .close _ => CleanupOutcome
  | .persistRedeliveryMeta _ => Bool
  | .captureManagedResult _ => Except ManagedResultError CapturedManagedResult
  | .preservedExists _ _ => Bool
  | .readPreserved _ => Except ManagedResultError CapturedManagedResult
  | .claimJob _ _ _ => Except ClientError ClaimJobResponse
  | .startJob _ _ _ => Except ClientError JobMutationAck
  | .getJob _ => Except ClientError JobDetail
  | .submitJobResult _ => Except ClientError Unit
  | .reportJob _ => Except ClientError Unit
  | .poll => Option ActiveAttempt

abbrev Prog := Program Call Answer

/-- One call of the daemon. -/
def call (e : Call) : Prog (Answer e) := .call e .done

@[simp] theorem call_then {α : Type} (e : Call) (f : Answer e → Prog α) :
    (call e >>= f) = .call e f := rfl

/-- `now_utc_ms` -/
def nowUtcMs : Prog Int := call .nowUtcMs

@[simp] theorem nowUtcMs_then {α : Type} (f : Int → Prog α) :
    (nowUtcMs >>= f) = .call .nowUtcMs f := rfl

end Ceo.Attempt
