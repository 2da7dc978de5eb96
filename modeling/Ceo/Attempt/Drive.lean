import Ceo.Attempt.Delivery

/-!
# `drive_active_attempt`

One pass over the active attempt, phase by phase (`daemon.rs`). A pass ends in
a `Turn`: a result for the main loop, an error that ends the daemon, or the
next round of the waiting loop with its local variables. The attempt a pass
has loaded is `active`; it is loaded again under the lock, as `current`,
before it is saved.
-/

namespace Ceo.Attempt

open Ceo.Lib Ceo.Jobs
open Ceo.Connector (Phase)

/-- The local variables of the waiting loop. -/
structure WaitLoop where
  active : ActiveAttempt
  terminalId : String
  deadlineMs : Int
  turnStartedObserved : Bool
  structuredLifecycleObserved : Bool
  deriving DecidableEq, Repr

inductive Turn where
  | ok (driven : Bool)
  | failed (error : DaemonError)
  | waiting (l : WaitLoop)
  deriving DecidableEq, Repr

/-! ### saving the attempt -/

def save {α : Type} (failed : DaemonError → α) (a : ActiveAttempt) (done : α) : Prog α := do
  match ← call (.saveActive a) with
  | .error e => return failed (.scheduler e)
  | .ok () => return done

/-- The attempt under the lock, if it is still the one the pass has loaded. -/
def withCurrent {α : Type} (leave : Turn → α) (active : ActiveAttempt)
    (f : ActiveAttempt → Prog α) : Prog α :=
  withLock (leave (.failed .io)) do
    match ← call .loadActive with
    | .error e => return leave (.failed (.scheduler e))
    | .ok none => return leave (.ok true)
    | .ok (some current) =>
      if current.attemptId = active.attemptId then f current else return leave (.ok true)

namespace ActiveAttempt

def inPhase (a : ActiveAttempt) (ph : Phase) : ActiveAttempt := { a with phase := ph }

/-- `if let Some(ref mut exec) = current.executor` -/
def mapExecutor (a : ActiveAttempt) (f : AttemptExecutorState → AttemptExecutorState) :
    ActiveAttempt :=
  { a with executor := a.executor.map f }

/-- `current.executor.get_or_insert_with(AttemptExecutorState::new_orca)` -/
def insertExecutor (a : ActiveAttempt) (f : AttemptExecutorState → AttemptExecutorState) :
    ActiveAttempt :=
  { a with executor := some (f (a.executor.getD .newOrca)) }

end ActiveAttempt

/-- The attempt is saved as `edit` makes it. -/
def update (active : ActiveAttempt) (edit : ActiveAttempt → ActiveAttempt) (turn : Turn) :
    Prog Turn :=
  withCurrent id active fun current => save .failed (edit current) turn

def advanceTo (ph : Phase) (active : ActiveAttempt) : Prog Turn :=
  update active (·.inPhase ph) (.ok true)

def recover (active : ActiveAttempt) (message : String) : Prog Turn :=
  update active (·.inPhase .recoveryRequired) (.failed (.recoveryRequired message))

namespace AttemptExecutorState

def identify (exec : AttemptExecutorState) (i : PreparedExecutionIdentity) :
    AttemptExecutorState :=
  { exec with
    orcaVersion := some i.orcaVersion
    worktreeId := some i.worktreeId
    terminalId := some i.terminalId
    agentId := some i.agentId }

def readyAt (exec : AttemptExecutorState) (agentReadyAtMs : Option Int) : AttemptExecutorState :=
  { exec with agentReadyAtMs := agentReadyAtMs }

/-- The times of the dispatch, unless they are there. -/
def startClock (exec : AttemptExecutorState) (now : Int) (timeoutSeconds : Option Nat) :
    AttemptExecutorState :=
  { exec with
    dispatchStartedAtMs := some (exec.dispatchStartedAtMs.getD now)
    executionDeadlineMs := some (exec.executionDeadlineMs.getD
      (now + (timeoutSeconds.getD 600 : Nat) * 1000)) }

/-- The worker was started with the prompt. -/
def workerStarted (exec : AttemptExecutorState) (evidence : PreparedDispatchEvidence) :
    AttemptExecutorState :=
  { exec with
    dispatchRequestId := some evidence.requestId
    dispatchAcceptedAtMs := some evidence.acceptedAtMs
    dispatchTurnStarted := evidence.turnStarted
    turnStartedObserved := evidence.turnStarted }

def countSend (exec : AttemptExecutorState) (baseline : Option Int) : AttemptExecutorState :=
  { exec with
    dispatchSendCount := exec.dispatchSendCount + 1
    dispatchBaselineStateStartedAt := baseline }

def accept (exec : AttemptExecutorState) (requestId : String) (acceptedAtMs : Int)
    (turnStarted : Bool) : AttemptExecutorState :=
  { exec with
    dispatchRequestId := some requestId
    dispatchAcceptedAtMs := some acceptedAtMs
    dispatchTurnStarted := turnStarted
    lastDispatchOutcome := none }

def reconcile (exec : AttemptExecutorState) (requestId : String) (now : Int) :
    AttemptExecutorState :=
  { exec with
    dispatchRequestId := some requestId
    dispatchAcceptedAtMs := some (exec.dispatchAcceptedAtMs.getD now) }

def lastOutcome (exec : AttemptExecutorState) (outcome : String) : AttemptExecutorState :=
  { exec with lastDispatchOutcome := some outcome }

def observeWorking (exec : AttemptExecutorState) : AttemptExecutorState :=
  { exec with turnStartedObserved := true, structuredLifecycleObserved := true }

def observeAgent (exec : AttemptExecutorState) : AttemptExecutorState :=
  { exec with structuredLifecycleObserved := true }

/-- The runtime outcome of an attempt. -/
def complete (exec : AttemptExecutorState) (kind : String) (atMs : Int)
    (err : Option ExecutionReportError) : AttemptExecutorState :=
  { exec with
    runtimeCompletionKind := some kind
    runtimeCompletedAtMs := some atMs
    runtimeError := err }

end AttemptExecutorState

/-! ### claim and start -/

section

variable (dev : Device)

/-- `validate_claim_response` -/
def validateClaimResponse (intent : ActiveAttempt) (resp : ClaimJobResponse) :
    Except String Unit :=
  Guard.run [
    ⟨resp.ok, "response.ok is false"⟩,
    ⟨resp.job.jobId == intent.jobId,
      "job_id mismatch: expected '" ++ intent.jobId ++ "', got '" ++ resp.job.jobId ++ "'"⟩,
    ⟨resp.job.workspaceId == intent.workspaceId,
      "workspace_id mismatch: expected '" ++ intent.workspaceId ++ "', got '" ++
        resp.job.workspaceId ++ "'"⟩,
    ⟨resp.job.targetId == intent.targetId,
      "target_id mismatch: expected '" ++ intent.targetId ++ "', got '" ++
        resp.job.targetId ++ "'"⟩,
    ⟨resp.attemptId == intent.attemptId,
      "attempt_id mismatch: expected '" ++ intent.attemptId ++ "', got '" ++
        resp.attemptId ++ "'"⟩,
    ⟨resp.attemptPhase == "claimed",
      "attempt.phase mismatch: expected 'claimed', got '" ++ resp.attemptPhase ++ "'"⟩,
    ⟨(dev.parseTimestampStrict resp.claimedAt).isOk, "attempt.claimed_at is invalid"⟩,
    ⟨(dev.parseTimestampStrict resp.serverTime).isOk, "server_time is invalid"⟩]

theorem validateClaimResponse_ok {intent : ActiveAttempt} {resp : ClaimJobResponse}
    (h : validateClaimResponse dev intent resp = .ok ()) :
    resp.job.jobId = intent.jobId ∧ resp.job.workspaceId = intent.workspaceId ∧
      resp.job.targetId = intent.targetId := by
  unfold validateClaimResponse at h
  rw [Guard.run_ok_iff] at h
  simp only [Guard.all_cons, beq_iff_eq] at h
  exact ⟨h.2.1, h.2.2.1, h.2.2.2.1⟩

def ClaimedJobWire.payload (job : ClaimedJobWire) : CanonicalPayload where
  jobId := job.jobId
  workspaceId := job.workspaceId
  targetId := job.targetId
  resourceId := job.resourceId
  prompt := job.prompt
  acceptance := job.acceptance
  executionTimeoutSeconds := job.timeoutSeconds
  resultTarget := job.resultTarget

/-- The attempt with the payload of the claimed job. -/
def ActiveAttempt.claimed (a : ActiveAttempt) (job : ClaimedJobWire) (claimedAtMs : Int) :
    ActiveAttempt :=
  { a with
    resourceId := job.resourceId
    prompt := some job.prompt
    acceptance := some job.acceptance
    executionTimeoutSeconds := some job.timeoutSeconds
    resultTarget := some job.resultTarget
    payloadSha256 := some (dev.computePayloadSha256 job.payload)
    claimedAtMs := some claimedAtMs }

def driveClaimIntent (active : ActiveAttempt) : Prog Turn := do
  match ← call (.claimJob active.jobId active.attemptId active.claimToken) with
  | .ok resp =>
    match validateClaimResponse dev active resp with
    | .error e => recover active ("Claim replay correlation validation failed: " ++ e)
    | .ok () =>
      match dev.parseTimestampStrict resp.claimedAt with
      | .error e => return .failed (.recoveryRequired e)
      | .ok claimedAtMs =>
        withCurrent id active fun current => do
          let current := current.claimed dev resp.job claimedAtMs
          match ← call (.persistRedeliveryMeta current) with
          | false => return .failed .io
          | true => save .failed (current.inPhase .claimed) (.ok true)
  | .error (.jobError code message) =>
    if code = "JOB_ALREADY_CLAIMED" ∨ code = "JOB_EXPIRED" ∨ code = "JOB_FINISHED" ∨
        code = "JOB_NOT_FOUND" then
      withLock (.failed .io) do
        match ← call .removeActive with
        | false => return .failed .io
        | true => return .ok false
    else if code = "IDEMPOTENCY_CONFLICT" then
      recover active ("Idempotency conflict: " ++ message)
    else return .ok true
  | .error _ => return .ok true

def driveStartIntent (active : ActiveAttempt) : Prog Turn := do
  match ← call (.startJob active.jobId active.attemptId active.claimToken) with
  | .ok ack =>
    if ack.ok && (dev.parseTimestampStrict ack.serverTime).isOk then advanceTo .started active
    else recover active "Start job response reported ok=false or invalid server_time"
  | .error (.jobError code message) =>
    if code = "JOB_NOT_FOUND" ∨ code = "ATTEMPT_NOT_FOUND" ∨ code = "JOB_NOT_ACTIVE" ∨
        code = "IDENTITY_MISMATCH" ∨ code = "CORRUPT_ATTEMPT_RECORD" ∨
        code = "INVALID_ATTEMPT_PHASE" ∨ code = "IDEMPOTENCY_CONFLICT" ∨
        code = "ATTEMPT_MISMATCH" ∨ code = "JOB_NOT_CLAIMED" then
      if code = "JOB_NOT_ACTIVE" ∨ code = "INVALID_ATTEMPT_PHASE" ∨ code = "ATTEMPT_MISMATCH" ∨
          code = "ATTEMPT_NOT_FOUND" then
        match ← call (.getJob active.jobId) with
        | .ok detail =>
          if isOperatorCancelled detail then
            match ← finalizeLocalOperatorCancelled dev active with
            | .error e => return .failed e
            | .ok () => return .ok true
          else recover active ("Start job failed closed: " ++ message)
        | .error _ => recover active ("Start job failed closed: " ++ message)
      else recover active ("Start job failed closed: " ++ message)
    else return .ok true
  | .error .unauthorized => return .failed .authRequired
  | .error _ => return .ok true

/-! ### prepare -/

/-- A target without a command is started by its logical agent. -/
def isLogicalAgent (target : Option LocalTarget) : Bool :=
  match target.bind (·.executor) with
  | none => true
  | some executor => executor.command.isNone

/-- The clock of a logical agent's attempt is started before the agent is. -/
def startClock (active : ActiveAttempt) (now : Int) : Prog (Except Turn Unit) :=
  withCurrent .error active fun current => do
    let current := current.insertExecutor (·.startClock now active.executionTimeoutSeconds)
    match current.executor.bind (·.executionDeadlineMs) with
    | none => save (.error ∘ .failed) current (.ok ())
    | some deadline =>
      if now ≥ deadline then
        save (.error ∘ .failed) (current.inPhase .recoveryRequired)
          (.error (.failed (.recoveryRequired ("WORKER_START_RECONCILIATION_DEADLINE: attempt " ++
            "exceeded execution deadline during worker-start prepare reconciliation"))))
      else save (.error ∘ .failed) current (.ok ())

def ActiveAttempt.identify (a : ActiveAttempt) : Option PreparedExecutionIdentity → ActiveAttempt
  | none => a
  | some i => a.insertExecutor fun exec => exec.identify i

/-- The attempt after a successful prepare; a worker that was started with it has the task. -/
def ActiveAttempt.ready (a : ActiveAttempt) (prep : PreparedExecution) : ActiveAttempt :=
  let a := a.insertExecutor fun exec =>
    (exec.identify prep.toPreparedExecutionIdentity).readyAt prep.agentReadyAtMs
  match prep.dispatch with
  | some evidence => (a.mapExecutor (·.workerStarted evidence)).inPhase .startIntent
  | none => a.inPhase .prepared

/-- `s.contains("RECOVERY_REQUIRED")` -/
def containsRecoveryRequired (s : String) : Bool :=
  s.toList.tails.any fun t => "RECOVERY_REQUIRED".toList.isPrefixOf t

def prepareAgent (active : ActiveAttempt) (target : LocalTarget) : Prog Turn := do
  match ← call (.prepare active target) with
  | .ok (.ready prep) =>
    match ← call (.ensureRuntimeDir active.attemptId) with
    | false => return .failed .io
    | true => update active (fun current => current.ready prep) (.ok true)
  | .ok (.retryable execution _) =>
    match execution with
    | none => return .ok true
    | some ident => update active (fun current => current.identify (some ident)) (.ok true)
  | .ok (.notReady execution reason) =>
    withCurrent id active fun current => do
      let now ← nowUtcMs
      save .failed
        ((current.insertExecutor fun exec =>
          (exec.identify execution).complete "not_started" now
            (some ⟨"prepare", "AGENT_NOT_READY", reason⟩)).inPhase .outcomeRecorded)
        (.ok true)
  | .ok (.recoveryRequired execution reason) =>
    update active (fun current => (current.identify execution).inPhase .recoveryRequired)
      (.failed (.recoveryRequired reason))
  | .error e =>
    if containsRecoveryRequired e then recover active e else return .ok true

def drivePrepareIntent (active : ActiveAttempt) : Prog Turn := do
  match ← call .isReady with
  | false => return .ok true
  | true =>
    match ← call (.loadConfig active.targetId) with
    | .error e => return .failed (.config e)
    | .ok none => recover active ("Target '" ++ active.targetId ++ "' no longer mapped locally")
    | .ok (some target) =>
      let now ← nowUtcMs
      if isLogicalAgent (some target) then
        match ← startClock active now with
        | .error turn => return turn
        | .ok () => prepareAgent active target
      else prepareAgent active target

def legacyInFlight (phase : String) : String :=
  "LEGACY_IN_FLIGHT_LOGICAL_ATTEMPT: logical agent attempt found in " ++ phase ++
    " without positive dispatch evidence; failing closed to prevent double-dispatch"

def drivePrepared (active : ActiveAttempt) : Prog Turn := do
  match ← call (.loadConfig active.targetId) with
  | .error e => return .failed (.config e)
  | .ok target =>
    if isLogicalAgent target then
      if active.hasPositiveDispatch then advanceTo .startIntent active
      else recover active (legacyInFlight "Prepared")
    else
      let now ← nowUtcMs
      update active (fun current =>
        (current.mapExecutor (·.startClock now active.executionTimeoutSeconds)).inPhase
          .dispatchIntent)
        (.ok true)

/-! ### dispatch -/

/-- The send is counted on disk before the prompt goes out. -/
def countSend (active : ActiveAttempt) (terminalId : String) : Prog (Except Turn Unit) :=
  withCurrent .error active fun current => do
    let baseline ← call (.agentStatusBaseline terminalId)
    save (.error ∘ .failed) (current.mapExecutor (·.countSend (baseline.toOption.getD none)))
      (.ok ())

def sendPrompt (active : ActiveAttempt) (terminalId : String) : Prog Turn := do
  match ← call (.dispatch active terminalId) with
  | .error _ => return .ok true
  | .ok (.accepted requestId acceptedAtMs turnStarted) =>
    update active (fun current =>
      (current.mapExecutor (·.accept requestId acceptedAtMs turnStarted)).inPhase .dispatched)
      (.ok true)
  | .ok (.knownRejectedBeforeAcceptance _) =>
    update active (·.mapExecutor (·.lastOutcome "known_rejected")) (.ok true)
  | .ok (.recoveryRequired code message) => recover active (code ++ ": " ++ message)
  | .ok (.ambiguousTransportFailure _) =>
    update active (·.mapExecutor (·.lastOutcome "ambiguous")) (.ok true)

def budgetExhausted : ExecutionReportError :=
  ⟨"dispatch", "DISPATCH_REJECTED",
    "Exhausted maximum dispatch retry budget (proven rejected before acceptance)"⟩

/-- The terminal has not got the prompt, the adapter says. -/
def resend (active : ActiveAttempt) (terminalId : String) : Prog Turn := do
  if active.executor.bind (·.lastDispatchOutcome) = some "ambiguous" then
    recover active ("Prior dispatch outcome was ambiguous; cannot safely issue fresh send " ++
      "without manual recovery")
  else if (active.executor.map (·.dispatchSendCount)).getD 0 ≥ 2 then
    withCurrent id active fun current => do
      let now ← nowUtcMs
      save .failed
        ((current.mapExecutor (·.complete "not_started" now (some budgetExhausted))).inPhase
          .outcomeRecorded)
        (.ok true)
  else
    match ← countSend active terminalId with
    | .error turn => return turn
    | .ok () => sendPrompt active terminalId

def reconcileAndDispatch (active : ActiveAttempt) (terminalId : String) : Prog Turn := do
  match ← call (.reconcileDispatch active terminalId) with
  | .error _ => return .ok true
  | .ok (.accepted requestId) =>
    withCurrent id active fun current => do
      let now ← nowUtcMs
      save .failed
        ((current.mapExecutor (·.reconcile requestId now)).inPhase .dispatched) (.ok true)
  | .ok .definitelyNotDispatched => resend active terminalId
  | .ok .ambiguous => recover active "Ambiguous dispatch state detected: RECOVERY_REQUIRED"

def driveDispatchIntent (active : ActiveAttempt) : Prog Turn := do
  match ← call (.loadConfig active.targetId) with
  | .error e => return .failed (.config e)
  | .ok target =>
    if isLogicalAgent target then
      if active.hasPositiveDispatch then advanceTo .startIntent active
      else recover active (legacyInFlight "DispatchIntent")
    else
      match active.executor.bind (·.terminalId) with
      | none => recover active "Dispatch intent missing terminal_id"
      | some terminalId => reconcileAndDispatch active terminalId

/-! ### the waiting loop -/

/-- The runtime outcome a wait ends with. -/
structure Completion where
  kind : String
  err : Option ExecutionReportError
  deriving DecidableEq, Repr

def executionTimeout : ExecutionReportError :=
  ⟨"runtime", "EXECUTION_TIMEOUT", "Execution exceeded durable timeout deadline"⟩

def recordCompletion (l : WaitLoop) (c : Completion) : Prog Turn :=
  withCurrent id l.active fun current => do
    let now ← nowUtcMs
    save .failed ((current.mapExecutor (·.complete c.kind now c.err)).inPhase .outcomeRecorded)
      (.ok true)

def isResource (a : ActiveAttempt) : Bool := a.resultTarget == some "resource"

/-- The deadline has passed without a completion. -/
def timedOut (l : WaitLoop) : Prog Turn := do
  if isResource l.active then
    match ← call (.captureManagedResult l.active) with
    | .ok _ => recordCompletion l ⟨"timed_out", none⟩
    | .error _ => recordCompletion l ⟨"timed_out", some executionTimeout⟩
  else recordCompletion l ⟨"timed_out", some executionTimeout⟩

/-- The agent is through; a resource job must have left its result. -/
def finished (l : WaitLoop) (kind missing : String) : Prog Turn := do
  if isResource l.active then
    match ← call (.captureManagedResult l.active) with
    | .ok _ => recordCompletion l ⟨kind, none⟩
    | .error .notFound => recordCompletion l ⟨kind, some ⟨"result", "RESULT_MISSING", missing⟩⟩
    | .error (.other text) => recordCompletion l ⟨kind, some ⟨"result", "RESULT_INVALID", text⟩⟩
  else recordCompletion l ⟨kind, none⟩

/-- The evidence flags are saved before the loop goes on. -/
def saveEvidence (l : WaitLoop) (edit : AttemptExecutorState → AttemptExecutorState)
    (l' : WaitLoop) : Prog Turn :=
  update l.active (fun current => current.mapExecutor edit) (.waiting l')

def observed (l : WaitLoop) : WaitOutcome → Prog Turn
  | .workingObserved =>
    if l.turnStartedObserved && l.structuredLifecycleObserved then return .waiting l
    else
      saveEvidence l (·.observeWorking)
        { l with turnStartedObserved := true, structuredLifecycleObserved := true }
  | .agentSeen =>
    if l.structuredLifecycleObserved then return .waiting l
    else
      saveEvidence l (·.observeAgent) { l with structuredLifecycleObserved := true }
  | .agentDone =>
    if l.turnStartedObserved then
      finished l "agent_done" "Agent reported done but managed-result.json was not found"
    else if l.structuredLifecycleObserved then return .waiting l
    else
      saveEvidence l (·.observeAgent) { l with structuredLifecycleObserved := true }
  | .tuiIdle =>
    if l.structuredLifecycleObserved then return .waiting l
    else if (l.active.executor.map (·.dispatchTurnStarted)).getD false || l.turnStartedObserved then
      finished l "tui_idle" "Agent reported tui-idle but managed-result.json was not found"
    else return .waiting l
  | .interrupted reason =>
    recordCompletion l ⟨"interrupted", some ⟨"runtime", "TERMINAL_EXITED", reason⟩⟩
  | .timedOut => return .waiting l

def observe (l : WaitLoop) : Prog Turn := do
  let now ← nowUtcMs
  if l.deadlineMs - now ≤ 0 then timedOut l
  else
    match ← call (.wait l.active l.terminalId) with
    | .error e => return .failed (.recoveryRequired ("Wait failure: " ++ e))
    | .ok outcome => observed l outcome

/-- A finalized managed result completes a resource job at once. -/
def barrier (l : WaitLoop) : Prog Turn := do
  if isResource l.active then
    match ← call (.captureManagedResult l.active) with
    | .ok _ => recordCompletion l ⟨"managed_result", none⟩
    | .error _ => observe l
  else observe l

/-- One round of the loop. -/
def waitRound (l : WaitLoop) : Prog Turn := do
  let now ← nowUtcMs
  if now < l.deadlineMs then
    match ← call (.getJob l.active.jobId) with
    | .ok detail =>
      if isOperatorCancelled detail then
        call (.interrupt l.active l.terminalId)
        match ← finalizeLocalOperatorCancelled dev l.active with
        | .error e => return .failed e
        | .ok () => return .ok true
      else barrier l
    | .error _ => barrier l
  else timedOut l

def driveWaiting (active : ActiveAttempt) : Prog Turn := do
  match active.executor.bind (·.terminalId) with
  | none => recover active "Waiting phase missing terminal_id"
  | some terminalId =>
    match active.executor.bind (·.dispatchRequestId) with
    | none => recover active "Waiting phase requires dispatch_request_id"
    | some _ =>
      match active.executor.bind (·.executionDeadlineMs) with
      | none => recover active "Waiting phase missing execution_deadline_ms"
      | some deadlineMs =>
        return .waiting {
          active := active
          terminalId := terminalId
          deadlineMs := deadlineMs
          turnStartedObserved := (active.executor.map (·.turnStartedObserved)).getD false
          structuredLifecycleObserved :=
            (active.executor.map (·.structuredLifecycleObserved)).getD false }

/-! ### the report -/

/-- What the report says of a recorded outcome. -/
structure Verdict where
  status : ExecutionStatus
  outcome : BusinessOutcome
  err : Option ExecutionReportError
  managed : Option CapturedManagedResult
  deriving DecidableEq, Repr

def Verdict.completed (managed : Option CapturedManagedResult) : Verdict :=
  ⟨.completed, .unverified, none, managed⟩

def captureOrFail (active : ActiveAttempt) (pre : String) : Prog (Except Turn Verdict) := do
  match ← call (.captureManagedResult active) with
  | .ok captured => return .ok (.completed (some captured))
  | .error .notFound => return .error (.failed (.recoveryRequired (pre ++ "IO error")))
  | .error (.other text) => return .error (.failed (.recoveryRequired (pre ++ text)))

/-- The managed result of a completed resource job, preserved before or captured now. -/
def completedResource (active : ActiveAttempt) : Prog (Except Turn Verdict) := do
  match ← call (.preservedExists active.jobId active.attemptId) with
  | true =>
    match ← call (.readPreserved active) with
    | .ok captured => return .ok (.completed (some captured))
    | .error _ => captureOrFail active "Failed to read managed result: "
  | false => captureOrFail active "Failed to capture managed result: "

def timedOutVerdict (exec : AttemptExecutorState) : Verdict where
  status := .timedOut
  outcome := .unverified
  err := some (exec.runtimeError.getD ⟨"runtime", "EXECUTION_TIMEOUT", "Execution timed out"⟩)
  managed := none

def timedOutResource (active : ActiveAttempt) (exec : AttemptExecutorState) :
    Prog (Except Turn Verdict) := do
  match ← call (.preservedExists active.jobId active.attemptId) with
  | true =>
    match ← call (.readPreserved active) with
    | .ok captured => return .ok (.completed (some captured))
    | .error _ => return .ok (timedOutVerdict exec)
  | false =>
    match ← call (.captureManagedResult active) with
    | .ok captured => return .ok (.completed (some captured))
    | .error _ => return .ok (timedOutVerdict exec)

def verdict (active : ActiveAttempt) (exec : AttemptExecutorState) :
    Prog (Except Turn Verdict) := do
  match exec.runtimeCompletionKind with
  | some "managed_result" | some "agent_done" | some "tui_idle" =>
    match exec.runtimeError with
    | some e => return .ok ⟨.failed, .failed, some e, none⟩
    | none => if isResource active then completedResource active else return .ok (.completed none)
  | some "timed_out" =>
    if isResource active then timedOutResource active exec else return .ok (timedOutVerdict exec)
  | some "interrupted" =>
    return .ok ⟨.failed, .failed,
      some (exec.runtimeError.getD ⟨"runtime", "TERMINAL_EXITED", "Execution interrupted"⟩), none⟩
  | some "not_started" =>
    return .ok ⟨.blocked, .notStarted,
      some (exec.runtimeError.getD ⟨"orchestration", "EXECUTION_NOT_STARTED",
        "Execution blocked before agent dispatch"⟩), none⟩
  | _ =>
    match ← recover active "Unknown runtime_completion_kind" with
    | turn => return .error turn

def completedKinds : List (Option String) :=
  [some "managed_result", some "agent_done", some "tui_idle"]

theorem verdict_of_error {active : ActiveAttempt} {exec : AttemptExecutorState}
    {e : ExecutionReportError} (hk : exec.runtimeCompletionKind ∈ completedKinds)
    (he : exec.runtimeError = some e) :
    verdict active exec = .done (.ok ⟨.failed, .failed, some e, none⟩) := by
  simp only [completedKinds, List.mem_cons, List.not_mem_nil, or_false] at hk
  unfold verdict
  rcases hk with hk | hk | hk <;> rw [hk, he] <;> rfl

theorem verdict_of_completed {active : ActiveAttempt} {exec : AttemptExecutorState}
    (hk : exec.runtimeCompletionKind ∈ completedKinds) (he : exec.runtimeError = none) :
    verdict active exec =
      if isResource active then completedResource active else .done (.ok (.completed none)) := by
  simp only [completedKinds, List.mem_cons, List.not_mem_nil, or_false] at hk
  unfold verdict
  rcases hk with hk | hk | hk <;> rw [hk, he] <;> rfl

/-- Whether the terminal is closed, and since when; `none` when the close is to be tried again. -/
def cleanup (active : ActiveAttempt) (exec : AttemptExecutorState) (status : ExecutionStatus) :
    Prog (Option (Bool × Option Int)) := do
  match status with
  | .completed =>
    match exec.terminalId with
    | none => return some (true, none)
    | some tid =>
      match ← call (.close tid) with
      | .verifiedClosed closedAtMs => return some (true, some closedAtMs)
      | .alreadyAbsent verifiedAtMs => return some (true, some verifiedAtMs)
      | .retryable _ => return none
      | .recoveryRequired _ _ => return some (false, none)
  | .timedOut =>
    match exec.terminalId with
    | none => return some (false, none)
    | some tid =>
      call (.interrupt active tid)
      return some (false, none)
  | _ => return some (false, none)

/-- A recorded time, or now. -/
def timeOrNow (t : Option Int) : Prog Int :=
  match t with
  | some t => return t
  | none => nowUtcMs

def receiptOf (active : ActiveAttempt) (exec : AttemptExecutorState) (closed : Bool × Option Int) :
    ExecutionReceipt where
  schemaVersion := 4
  jobId := active.jobId
  attemptId := active.attemptId
  targetId := active.targetId
  orcaVersion := exec.orcaVersion.getD "unknown"
  worktreeId := exec.worktreeId
  terminalId := exec.terminalId
  agentId := exec.agentId
  agentReadyAtMs := exec.agentReadyAtMs
  dispatchRequestId := exec.dispatchRequestId
  taskDispatched := exec.dispatchRequestId.isSome
  runtimeCompletionKind := exec.runtimeCompletionKind
  dispatchStartedAtMs := exec.dispatchStartedAtMs
  runtimeCompletedAtMs := exec.runtimeCompletedAtMs
  terminalCleanupVerified := closed.1
  terminalClosedAtMs := closed.2

def reportOf (active : ActiveAttempt) (exec : AttemptExecutorState) (v : Verdict)
    (closed : Bool × Option Int) (startedMs completedMs : Int) : ExecutionReport where
  schemaVersion := reportSchemaVersion
  executionStatus := v.status
  businessOutcome := v.outcome
  taskDispatched := exec.dispatchRequestId.isSome
  finishedAtMs := completedMs
  durationMs := if exec.dispatchRequestId.isSome then max (completedMs - startedMs) 0 else 0
  executor := ⟨exec.executorType, exec.orcaVersion.getD "unknown"⟩
  receiptSha256 := dev.computeReceiptSha256 (receiptOf active exec closed)
  error := v.err

def outboxRecordOf (active : ActiveAttempt) (v : Verdict) (report : ExecutionReport)
    (createdAtMs : Int) : OutboxRecord where
  serverOrigin := dev.serverOrigin
  deviceId := dev.deviceId
  jobId := active.jobId
  attemptId := active.attemptId
  claimToken := active.claimToken
  report := report
  managedResult := v.managed.map (·.envelope)
  managedResultSha256 := v.managed.map (·.payloadSha256)
  createdAtMs := createdAtMs

def ActiveAttempt.finalized (a : ActiveAttempt) (digest : String) : ActiveAttempt :=
  { a with phase := .finalizedLocal, terminalReportSha256 := some digest }

/-- The report is in the outbox before the attempt is finalized with its digest. -/
def saveReport (active : ActiveAttempt) (v : Verdict) (report : ExecutionReport) :
    Prog Turn := do
  match report.validate with
  | .error e => return .failed (.recoveryRequired e)
  | .ok () =>
    let now ← nowUtcMs
    match ← call (.saveOutbox (outboxRecordOf dev active v report now)) with
    | .error e => return .failed (.recoveryRequired e)
    | .ok () =>
      let finalized ← withCurrent Except.error active fun current =>
        save (.error ∘ .failed) (current.finalized (dev.computeReportSha256 report)) (.ok ())
      match finalized with
      | .error turn => return turn
      | .ok () =>
        let _ ← flushOutbox dev
        return .ok true

def driveOutcomeRecorded (active : ActiveAttempt) : Prog Turn := do
  match active.executor with
  | none => return .failed (.recoveryRequired "OutcomeRecorded phase missing executor state")
  | some exec =>
    match ← verdict active exec with
    | .error turn => return turn
    | .ok v =>
      match ← cleanup active exec v.status with
      | none => return .ok true
      | some closed =>
        let startedMs ← timeOrNow exec.dispatchStartedAtMs
        let completedMs ← timeOrNow exec.runtimeCompletedAtMs
        saveReport dev active v (reportOf dev active exec v closed startedMs completedMs)

def driveFinalizedLocal (active : ActiveAttempt) : Prog Turn := do
  match ← call (.outboxExists active.jobId active.attemptId) with
  | true =>
    match ← call (.loadOutbox active.jobId active.attemptId) with
    | .error e => return .failed (.recoveryRequired ("failed to load outbox: " ++ e))
    | .ok outbox =>
      if outbox.jobId = active.jobId ∧ outbox.attemptId = active.attemptId ∧
          some (dev.computeReportSha256 outbox.report) = active.terminalReportSha256 then
        match ← deliverOutboxRecord dev outbox with
        | .ok () => return .ok true
        | .error .authRequired => return .failed .authRequired
        | .error (.recoveryRequired message) => return .failed (.recoveryRequired message)
        | .error (.retryable _) => return .ok true
        | .error e => return .failed (.recoveryRequired e.toString)
      else return .failed (.recoveryRequired
        "Outbox record does not match active attempt correlation")
  | false =>
    match ← call (.loadHistory active.jobId active.attemptId) with
    | .error _ => return .failed .io
    | .ok none => return .failed (.recoveryRequired
        "Attempt in finalized_local but neither valid history nor outbox file exists")
    | .ok (some hist) =>
      if hist.jobId = active.jobId ∧ hist.attemptId = active.attemptId ∧
          hist.targetId = active.targetId ∧
          some hist.terminalReportSha256 = active.terminalReportSha256 then
        withLock (.failed .io) do
          match ← call .removeActive with
          | false => return .failed .io
          | true => return .ok false
      else return .failed (.recoveryRequired
        "History record does not match active attempt correlation")

/-! ### recovery -/

def recoveryTerminalized (stage message : String) : ExecutionReportError :=
  ⟨stage, "RECOVERY_TERMINALIZED", message⟩

/-- The outcome an attempt is given that the coordinator still has as running. -/
def recoverRunning (exec : AttemptExecutorState) (captured : Bool) (now : Int) :
    AttemptExecutorState :=
  if exec.runtimeCompletionKind.isSome then exec
  else if captured then exec.complete "managed_result" now none
  else if exec.dispatchRequestId.isSome then
    exec.complete "interrupted" now (some (recoveryTerminalized "runtime"
      ("Attempt recovered from local recovery_required state and terminalized as failed to " ++
        "unblock queue")))
  else
    exec.complete "not_started" now (some (recoveryTerminalized "orchestration"
      ("Attempt recovered from local recovery_required state before dispatch and terminalized " ++
        "as blocked to unblock queue")))

/-- The same where the coordinator has it as claimed. -/
def recoverClaimed (exec : AttemptExecutorState) (now : Int) : AttemptExecutorState :=
  { exec with dispatchRequestId := none }.complete "not_started" now
    (some (recoveryTerminalized "orchestration"
      ("Attempt recovered from local recovery_required state while claimed and terminalized " ++
        "as blocked to unblock queue")))

def serverRunning (detail : JobDetail) : Bool :=
  detail.state == "running" ||
    match detail.execution with
    | none => false
    | some e => e.phase == "running" || e.startedAt.isSome

def hasCapturedResult (current : ActiveAttempt) : Prog Bool := do
  if isResource current then
    match ← call (.preservedExists current.jobId current.attemptId) with
    | true => return true
    | false =>
      match ← call (.captureManagedResult current) with
      | .ok _ => return true
      | .error _ => return false
  else return false

def terminalize (active : ActiveAttempt) (detail : JobDetail) : Prog Turn :=
  withCurrent id active fun current => do
    let captured ← hasCapturedResult current
    let now ← nowUtcMs
    save .failed
      ((current.insertExecutor fun exec =>
        if serverRunning detail then recoverRunning exec captured now
        else recoverClaimed exec now).inPhase .outcomeRecorded)
      (.ok true)

def driveRecoveryRequired (active : ActiveAttempt) : Prog Turn := do
  match ← reconcileWithOperatorCancel dev with
  | .finalized | .noMarker => return .ok true
  | .blocked reason =>
    let stays : Turn := .failed (.recoveryRequired
      ("Active attempt is in recovery_required phase: " ++ reason))
    match ← call (.getJob active.jobId) with
    | .ok detail =>
      if detail.state ≠ "terminal" ∧
          detail.execution.map (·.attemptId) = some active.attemptId then
        terminalize active detail
      else return stays
    | .error _ => return stays

/-! ### one pass -/

def drivePhase (active : ActiveAttempt) : Prog Turn :=
  match active.phase with
  | .claimIntent => driveClaimIntent dev active
  | .claimed => advanceTo .prepareIntent active
  | .startIntent => driveStartIntent dev active
  | .started => advanceTo .waiting active
  | .prepareIntent => drivePrepareIntent active
  | .prepared => drivePrepared active
  | .dispatchIntent => driveDispatchIntent active
  | .dispatched => advanceTo .startIntent active
  | .waiting => driveWaiting active
  | .outcomeRecorded => driveOutcomeRecorded dev active
  | .finalizedLocal => driveFinalizedLocal dev active
  | .recoveryRequired => driveRecoveryRequired dev active
  | .legacyRunning => recover active "Legacy running attempt migrated to recovery_required"

def driveActiveAttempt : Prog Turn := do
  match ← call .loadActive with
  | .error e => return .failed (.scheduler e)
  | .ok none => return .ok false
  | .ok (some active) =>
    if active.deviceId ≠ dev.deviceId ∨ active.serverOrigin ≠ dev.serverOrigin then
      return .failed (.recoveryRequired ("Active attempt identity mismatch: expected server '" ++
        dev.serverOrigin ++ "' / device '" ++ dev.deviceId ++ "', but got '" ++
        active.serverOrigin ++ "' / '" ++ active.deviceId ++ "'"))
    else drivePhase dev active

end

end Ceo.Attempt
