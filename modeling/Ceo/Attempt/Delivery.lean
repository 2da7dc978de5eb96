import Ceo.Attempt.Calls

/-!
# Delivery and operator cancels

`deliver_outbox_record` and `flush_outbox` (`outbox.rs`), and the convergence
of a cancelled attempt (`attempt_convergence.rs`). Debug renderings in the
texts of errors are left out, and so are the writes whose failure is ignored
and that nothing here reads: the delivery receipt, the redelivery metadata and
the removal of the runtime directory.
-/

namespace Ceo.Attempt

open Ceo.Lib Ceo.Jobs
open Ceo.Connector (Phase)

inductive DaemonError where
  | io
  | scheduler (text : String)
  | config (text : String)
  | authRequired
  | recoveryRequired (message : String)
  deriving DecidableEq, Repr

inductive OutboxError where
  | io
  | invalid (text : String)
  | identityMismatch
  | authRequired
  | recoveryRequired (message : String)
  | retryable (message : String)
  deriving DecidableEq, Repr

/-- The display of the errors that end a drive of the attempt. -/
def OutboxError.toString : OutboxError → String
  | .io => "IO error"
  | .invalid text => text
  | .identityMismatch => "Outbox identity mismatch (RECOVERY_REQUIRED)"
  | .authRequired => "Authentication required / 401 Unauthorized"
  | .recoveryRequired message =>
    "Terminal conflict or invalid report lifecycle: " ++ message ++ " (RECOVERY_REQUIRED)"
  | .retryable message => "Retryable delivery failure: " ++ message

/-- `state.lock` is held until the end of the block. -/
def withLock {α : Type} (busy : α) (p : Prog α) : Prog α := do
  match ← call .lock with
  | false => return busy
  | true =>
    let a ← p
    call .unlock
    return a

def isOperatorCancelled (detail : JobDetail) : Bool :=
  detail.state == "terminal" && detail.executionStatus == some "CANCELLED"

/-- `server_proves_exact_operator_cancelled` -/
def serverProvesExactOperatorCancelled (detail : JobDetail) (localAttemptId : String) : Bool :=
  isOperatorCancelled detail && detail.execution.map (·.attemptId) == some localAttemptId

section

variable (dev : Device)

def cancelledHistory (jobId attemptId targetId : String) (recordedAtMs : Int) : HistoryRecord where
  jobId := jobId
  attemptId := attemptId
  targetId := targetId
  status := "cancelled"
  receiptSha256 := none
  durationMs := none
  terminalReportSha256 := dev.operatorCancelDigest jobId attemptId
  recordedAtMs := recordedAtMs

def deliveredHistory (record : OutboxRecord) (targetId : String) (recordedAtMs : Int) :
    HistoryRecord where
  jobId := record.jobId
  attemptId := record.attemptId
  targetId := targetId
  status :=
    match record.report.executionStatus with
    | .completed => "completed"
    | .timedOut => "timed_out"
    | _ => "failed"
  receiptSha256 := some record.report.receiptSha256
  durationMs := some record.report.durationMs
  terminalReportSha256 := dev.computeReportSha256 record.report
  recordedAtMs := recordedAtMs

/-- The cleanup after an accepted report, under the lock. -/
def acknowledged (record : OutboxRecord) : Prog (Except OutboxError Unit) := do
  match ← call .loadActive with
  | .error e => return .error (.recoveryRequired ("failed to load active attempt: " ++ e))
  | .ok none =>
    return .error (.recoveryRequired "Active attempt missing during outbox delivery cleanup")
  | .ok (some active) =>
    if active.jobId ≠ record.jobId ∨ active.attemptId ≠ record.attemptId then
      return .error (.recoveryRequired ("Active attempt '" ++ active.jobId ++ "/" ++
        active.attemptId ++ "' does not match outbox '" ++ record.jobId ++ "/" ++
        record.attemptId ++ "'"))
    else if active.phase ≠ .finalizedLocal then
      return .error (.recoveryRequired "Active attempt phase is not finalized_local")
    else if active.terminalReportSha256 ≠ some (dev.computeReportSha256 record.report) then
      return .error (.recoveryRequired "Active attempt terminal_report_sha256 mismatch")
    else
      let now ← nowUtcMs
      match ← call (.saveHistory (deliveredHistory dev record active.targetId now)) with
      | false => return .error .io
      | true =>
        match ← call (.removeOutbox record.jobId record.attemptId) with
        | false => return .error .io
        | true =>
          match ← call .removeActive with
          | false => return .error .io
          | true => return .ok ()

/-- A report the coordinator refuses: an operator cancel of the job wins over it. -/
def refused (record : OutboxRecord) (code message : String) : Prog (Except OutboxError Unit) := do
  let rejected : Except OutboxError Unit := .error (.recoveryRequired (code ++ ": " ++ message))
  if code = "REPORT_CONFLICT" ∨ code = "ATTEMPT_MISMATCH" then
    match ← call .loadActive with
    | .ok (some active) =>
      if active.jobId = record.jobId ∧ active.attemptId = record.attemptId then
        match ← call (.getJob record.jobId) with
        | .ok detail =>
          if isOperatorCancelled detail then
            let now ← nowUtcMs
            match ← call (.saveHistory
                (cancelledHistory dev record.jobId record.attemptId active.targetId now)) with
            | false => return .error .io
            | true =>
              match ← call (.removeOutbox record.jobId record.attemptId) with
              | false => return .error .io
              | true =>
                match ← call .removeActive with
                | false => return .error .io
                | true => return .ok ()
          else return rejected
        | .error _ => return rejected
      else return rejected
    | _ => return rejected
  else return rejected

def deliverReport (record : OutboxRecord) : Prog (Except OutboxError Unit) := do
  match ← call (.reportJob record) with
  | .ok () => withLock (.error .io) (acknowledged dev record)
  | .error .unauthorized => return .error .authRequired
  | .error (.jobError code message) => refused dev record code message
  | .error (.serverUnavailable message) => return .error (.retryable ("Server returned " ++ message))
  | .error (.http e) => return .error (.retryable ("HTTP error: " ++ e))
  | .error (.other e) => return .error (.recoveryRequired ("Unexpected client error: " ++ e))

/-- The result is acknowledged strictly before the report is sent. -/
def deliverOutboxRecord (record : OutboxRecord) : Prog (Except OutboxError Unit) := do
  if dev.serverOrigin ≠ record.serverOrigin ∨ dev.deviceId ≠ record.deviceId then
    return .error .identityMismatch
  else if record.managedResult.isSome && record.managedResultSha256.isSome then
    match ← call (.submitJobResult record) with
    | .ok () => deliverReport dev record
    | .error .unauthorized => return .error .authRequired
    | .error (.jobError code message) =>
      return .error (.recoveryRequired (code ++ ": " ++ message))
    | .error (.serverUnavailable message) =>
      return .error (.retryable ("Server returned " ++ message))
    | .error (.http e) => return .error (.retryable ("HTTP error: " ++ e))
    | .error (.other e) =>
      return .error (.recoveryRequired ("Unexpected client error on result submit: " ++ e))
  else deliverReport dev record

/-- The records in directory order; the first failure ends the flush. -/
def flushRecords : List (String × String) → Prog (Except OutboxError Unit)
  | [] => return .ok ()
  | (jobId, attemptId) :: rest => do
    match ← call (.loadOutbox jobId attemptId) with
    | .error e => return .error (.invalid e)
    | .ok record =>
      match ← deliverOutboxRecord dev record with
      | .error e => return .error e
      | .ok () => flushRecords rest

def flushOutbox : Prog (Except OutboxError Unit) := do
  match ← call .listOutbox with
  | .error _ => return .error .io
  | .ok files => flushRecords dev files

def finalizeLocalOperatorCancelled (active : ActiveAttempt) : Prog (Except DaemonError Unit) :=
  withLock (.error .io) do
    match ← call .loadActive with
    | .error e => return .error (.scheduler e)
    | .ok none => return .ok ()
    | .ok (some current) =>
      if current.attemptId = active.attemptId then
        let now ← nowUtcMs
        match ← call (.saveHistory
            (cancelledHistory dev current.jobId current.attemptId current.targetId now)) with
        | false => return .error .io
        | true =>
          match ← call .removeActive with
          | false => return .error .io
          | true => return .ok ()
      else return .ok ()

inductive OperatorCancelReconciliation where
  | finalized
  | noMarker
  | blocked (reason : String)
  deriving DecidableEq, Repr

/-- `reconcile_active_attempt_with_server_operator_cancel`, of the daemon and of the project
commands. -/
def reconcileWithOperatorCancel : Prog OperatorCancelReconciliation := do
  match ← call .loadActive with
  | .ok none => return .noMarker
  | .error e =>
    return .blocked ("local active-attempt state is corrupt or unreadable (" ++ e ++
      ") (LOCAL_STATE_INVALID)")
  | .ok (some active) =>
    if active.serverOrigin ≠ dev.serverOrigin ∨ active.deviceId ≠ dev.deviceId then
      return .blocked "local active attempt identity does not match this device's credential"
    else
      match ← call (.getJob active.jobId) with
      | .error _ =>
        return .blocked ("server job truth unavailable for job '" ++ active.jobId ++ "'")
      | .ok detail =>
        if serverProvesExactOperatorCancelled detail active.attemptId then
          match ← finalizeLocalOperatorCancelled dev active with
          | .ok () => return .finalized
          | .error _ => return .blocked "durable operator-cancel finalization failed"
        else return .blocked "server does not prove local attempt is terminal CANCELLED"

end

end Ceo.Attempt
