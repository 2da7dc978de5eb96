import Ceo.Attempt.Calls
import Ceo.Lib.Log
import Mathlib.Data.List.Infix

/-!
# Starting the worker

The part of `OrcaExecutionAdapter::prepare` that starts an agent without an
explicit command: it lists the orchestration runs, reconciles what an earlier
call may have started, and sends `worker_start` when it takes it that nothing
was. A program over the calls it makes of Orca; the two steps that find the
coordinator terminal are calls with any answer, as they send no
`worker_start`.
-/

namespace Ceo.Attempt.Launch

open Ceo.Lib Program

/-! ### what Orca answers -/

inductive OrcaError where
  | io (error : String)
  | timeout (after : String)
  | commandFailed (code : Option Int) (stderr : String)
  | jsonParse (error raw : String)
  | protocol (message raw : String)
  | orca (code message : String)
  deriving DecidableEq, Repr

/-- The text of an error in a message. -/
def OrcaError.text : OrcaError → String
  | .io error => "Orca executable not found or IO error: " ++ error
  | .timeout after => "Orca CLI timeout after " ++ after
  | .commandFailed code stderr =>
    "Orca CLI returned exit code " ++
      (match code with
       | none => "None"
       | some n => "Some(" ++ toString n ++ ")") ++ ": " ++ stderr
  | .jsonParse error raw => "Failed to parse Orca JSON output: " ++ error ++ ". Raw output: " ++ raw
  | .protocol message raw => "Orca protocol error: " ++ message ++ ". Raw output: " ++ raw
  | .orca code message => "Orca reported error: " ++ code ++ ": " ++ message

/-- `str::contains` -/
def contains (s piece : String) : Bool := decide (piece.toList <:+: s.toList)

def isTransient : OrcaError → Bool
  | .timeout _ => true
  | .io _ => true
  | .orca code message =>
    code == "timeout" || code == "timed_out" || code == "runtime_unavailable"
      || code == "transport_error" || contains message "timed_out" || contains message "timeout"
  | _ => false

structure OrcaRunItem where
  id : String
  objective : Option String
  deriving DecidableEq, Repr

structure OrcaWorkerItem where
  agentTerminalHandle : Option String
  deriving DecidableEq, Repr

structure OrcaTerminalExitCause where
  kind : String
  message : Option String
  deriving DecidableEq, Repr

structure OrcaTerminalItem where
  worktreeId : Option String
  orphaned : Option Bool
  connected : Option Bool
  exitCause : Option OrcaTerminalExitCause
  deriving DecidableEq, Repr

inductive TerminalLiveness where
  | live
  | definitelyExited (reason : String)
  | unknown
  deriving DecidableEq, Repr

def OrcaTerminalItem.liveness (t : OrcaTerminalItem) : TerminalLiveness :=
  match t.exitCause.filter (!·.kind.isEmpty) with
  | some cause =>
    .definitelyExited ("exitCause.kind=" ++ cause.kind ++
      (match cause.message.filter (!·.isEmpty) with
       | some msg => ": " ++ msg
       | none => ""))
  | none =>
    if t.connected = some true then .live
    else if t.orphaned = some true then .definitelyExited "orphaned"
    else .unknown

structure OrcaWorkerEffect where
  kind : String
  role : Option String
  id : Option String
  deriving DecidableEq, Repr

structure OrcaWorkerStartResult where
  runId : Option String
  taskId : Option String
  dispatchId : Option String
  state : Option String
  effects : List OrcaWorkerEffect
  terminalHandle : Option String
  deriving DecidableEq, Repr

/-- A text that is there and is not blank, trimmed. -/
def nonBlank (s : Option String) : Option String :=
  s.bind fun s => if (trim s).isEmpty then none else some (trim s)

/-- The direct field, then an agent's terminal, then a dispatch input, then any terminal id. -/
def OrcaWorkerStartResult.workerTerminalHandle (r : OrcaWorkerStartResult) : Option String :=
  (nonBlank r.terminalHandle).or <|
    (r.effects.findSome? fun eff =>
      if eff.kind = "terminal" ∧ eff.role = some "agent" then nonBlank eff.id else none).or <|
    (r.effects.findSome? fun eff =>
      if eff.kind = "dispatch_input" then nonBlank eff.id else none).or <|
    r.effects.findSome? fun eff =>
      eff.id.bind fun id => if (trim id).startsWith "term_" then some (trim id) else none

structure OrcaRequestShowResult (Value : Type) where
  requestId : String
  state : String
  receipt : Option Value

namespace OrcaRequestShowResult

variable {Value : Type}

def isCompleted (r : OrcaRequestShowResult Value) : Bool := eqIgnoreAsciiCase r.state "completed"

def isPending (r : OrcaRequestShowResult Value) : Bool := eqIgnoreAsciiCase r.state "pending"

def isAbsent (r : OrcaRequestShowResult Value) : Bool := eqIgnoreAsciiCase r.state "absent"

theorem isAbsent_of_isPending {r : OrcaRequestShowResult Value} (h : r.isPending = true) :
    r.isAbsent = false := by
  have hp : r.state.toList.map Char.toLower = "pending".toList.map Char.toLower := by
    simpa [isPending, eqIgnoreAsciiCase] using h
  have hne : "pending".toList.map Char.toLower ≠ "absent".toList.map Char.toLower := by decide
  simp only [isAbsent, eqIgnoreAsciiCase, hp]
  exact beq_false_of_ne hne

theorem isCompleted_of_isPending {r : OrcaRequestShowResult Value} (h : r.isPending = true) :
    r.isCompleted = false := by
  have hp : r.state.toList.map Char.toLower = "pending".toList.map Char.toLower := by
    simpa [isPending, eqIgnoreAsciiCase] using h
  have hne : "pending".toList.map Char.toLower ≠ "completed".toList.map Char.toLower := by decide
  simp only [isCompleted, eqIgnoreAsciiCase, hp]
  exact beq_false_of_ne hne

end OrcaRequestShowResult

/-- What the crates give: the JSON of a receipt and its parsers, the debug form of a text, and
the request id of a mutation. -/
structure Crates (Value : Type) where
  get : Value → String → Option Value
  toWorkerStart : Value → Except String OrcaWorkerStartResult
  toRunCreate : Value → Option OrcaRunItem
  toRun : Value → Option OrcaRunItem
  debug : String → String
  deriveMutationRequestId : String → String → String

namespace Crates

variable {Value : Type} (crates : Crates Value)

def unwrapped (receipt : Value) : Value := (crates.get receipt "result").getD receipt

def parseWorkerStartResult (receipt : Value) : Except String OrcaWorkerStartResult :=
  match crates.toWorkerStart (crates.unwrapped receipt) with
  | .ok result => .ok result
  | .error e => .error ("failed to parse worker-start receipt as dispatch evidence: " ++ e)

/-- The run a completed `run-create` request left in its receipt. -/
def receiptRun (receipt : Value) : Option OrcaRunItem :=
  (crates.toRunCreate (crates.unwrapped receipt)).or (crates.toRun (crates.unwrapped receipt))

def debugOption : Option String → String
  | none => "None"
  | some s => "Some(" ++ crates.debug s ++ ")"

def debugList (l : List String) : String := "[" ++ ", ".intercalate (l.map crates.debug) ++ "]"

def debugLiveness : TerminalLiveness → String
  | .live => "Live"
  | .definitelyExited reason =>
    "DefinitelyExited \x7b reason: " ++ crates.debug reason ++ " \x7d"
  | .unknown => "Unknown"

end Crates

/-! ### the calls -/

structure WorkerStart where
  coordinatorHandle : String
  runId : String
  worktreeId : String
  agentId : String
  model : Option String
  spec : String
  requestId : String
  deriving DecidableEq, Repr

inductive Call where
  | supportsAgentSessionLaunch
  | listRuns
  | showTerminal (handle : String)
  | requestShow (requestId : String)
  | listWorkers (runId : String)
  | resolveCoordinatorAnchorWorktree (fallbackWorktreeId : String)
  | ensureCoordinatorTerminal (anchorWorktreeId deviceId : String)
  | createRun (coordinatorHandle objective requestId : String)
  | workerStart (w : WorkerStart)
  | now
  deriving DecidableEq, Repr

abbrev Answer (Value : Type) : Call → Type
  | .supportsAgentSessionLaunch => Bool
  | .listRuns => Except OrcaError (List OrcaRunItem)
  | .showTerminal _ => Except OrcaError (Option OrcaTerminalItem)
  | .requestShow _ => Except OrcaError (OrcaRequestShowResult Value)
  | .listWorkers _ => Except OrcaError (List OrcaWorkerItem)
  | .resolveCoordinatorAnchorWorktree _ => String
  | .ensureCoordinatorTerminal .. => Except String String
  | .createRun .. => Except OrcaError OrcaRunItem
  | .workerStart _ => Except OrcaError OrcaWorkerStartResult
  | .now => Int

abbrev Orca (Value : Type) (α : Type) : Type := Program Call (Answer Value) α

abbrev Calls (Value : Type) : Type := Log Call (Answer Value)

/-! ### the client -/

section Client

variable {Value : Type}

def supportsAgentSessionLaunch : Orca Value Bool := perform Call.supportsAgentSessionLaunch

def listRuns : Orca Value (Except OrcaError (List OrcaRunItem)) := perform Call.listRuns

def showTerminal (handle : String) : Orca Value (Except OrcaError (Option OrcaTerminalItem)) :=
  perform (Call.showTerminal handle)

def requestShow (requestId : String) :
    Orca Value (Except OrcaError (OrcaRequestShowResult Value)) :=
  perform (Call.requestShow requestId)

def listWorkers (runId : String) : Orca Value (Except OrcaError (List OrcaWorkerItem)) :=
  perform (Call.listWorkers runId)

def resolveCoordinatorAnchorWorktree (fallbackWorktreeId : String) : Orca Value String :=
  perform (Call.resolveCoordinatorAnchorWorktree fallbackWorktreeId)

def ensureCoordinatorTerminal (anchorWorktreeId deviceId : String) :
    Orca Value (Except String String) :=
  perform (Call.ensureCoordinatorTerminal anchorWorktreeId deviceId)

def createRun (coordinatorHandle objective requestId : String) :
    Orca Value (Except OrcaError OrcaRunItem) :=
  perform (Call.createRun coordinatorHandle objective requestId)

def workerStart (w : WorkerStart) : Orca Value (Except OrcaError OrcaWorkerStartResult) :=
  perform (Call.workerStart w)

def nowMillis : Orca Value Int := perform Call.now

end Client

/-! ### the adapter -/

structure ReconciledWorker where
  terminalHandle : String
  dispatchEvidence : PreparedDispatchEvidence
  deriving DecidableEq, Repr

inductive WorkerStartOutcome where
  | reconciled (worker : ReconciledWorker)
  | outcome (out : PrepareOutcome)
  deriving DecidableEq, Repr

section Adapter

variable {Value : Type} (crates : Crates Value)

def validateWorkerTerminal (terminalHandle expectedWorktreeId : String) :
    Orca Value (Except String Unit) := do
  match ← showTerminal terminalHandle with
  | .ok (some term) =>
    if term.worktreeId ≠ some expectedWorktreeId then
      return .error ("recovered worker terminal '" ++ terminalHandle ++ "' belongs to worktree '" ++
        crates.debugOption term.worktreeId ++ "', expected '" ++ expectedWorktreeId ++
        "'; preserving evidence")
    else if term.liveness ≠ .live then
      return .error ("recovered worker terminal '" ++ terminalHandle ++
        "' is not live (liveness: " ++ crates.debugLiveness term.liveness ++
        "); preserving evidence")
    else
      return .ok ()
  | .ok none =>
    return .error ("recovered worker terminal '" ++ terminalHandle ++
      "' not found in Orca; preserving evidence")
  | .error e =>
    return .error ("failed to inspect recovered worker terminal '" ++ terminalHandle ++ "': " ++
      e.text ++ "; preserving evidence")

def orMissing (s : String) : String := if s.isEmpty then "<missing>" else s

def validateWorkerStartDispatch (result : OrcaWorkerStartResult)
    (expectedRunId expectedWorktreeId : String) : Orca Value (Except String String) := do
  let runId := trim (result.runId.getD "")
  let taskId := trim (result.taskId.getD "")
  let dispatchId := trim (result.dispatchId.getD "")
  let state := trim (result.state.getD "")
  if runId.isEmpty || runId ≠ expectedRunId then
    return .error ("worker-start dispatch run_id mismatch: expected '" ++ expectedRunId ++
      "', got '" ++ orMissing runId ++ "'; preserving evidence")
  else if taskId.isEmpty then
    return .error ("worker-start dispatch missing taskId; terminal existence is not dispatch; " ++
      "preserving evidence")
  else if dispatchId.isEmpty then
    return .error ("worker-start dispatch missing dispatchId; " ++
      "terminal existence is not dispatch; preserving evidence")
  else if !eqIgnoreAsciiCase state "ready" then
    return .error ("worker-start dispatch state mismatch: expected ready, got " ++
      orMissing state ++ "; preserving evidence")
  else
    match result.workerTerminalHandle with
    | none =>
      return .error
        "worker-start dispatch missing recoverable terminal handle; preserving evidence"
    | some handle =>
      match ← validateWorkerTerminal crates handle expectedWorktreeId with
      | .ok () => return .ok handle
      | .error reason => return .error reason

def recovery (reason : String) : PrepareOutcome := .recoveryRequired none reason

def retryable (reason : String) : PrepareOutcome := .retryable none reason

/-- What a validated worker-start answer or receipt becomes. -/
def reconcileDispatch (result : OrcaWorkerStartResult) (workerRetryId runId worktreeId : String) :
    Orca Value WorkerStartOutcome := do
  match ← validateWorkerStartDispatch crates result runId worktreeId with
  | .ok handle =>
    let now ← nowMillis
    return .reconciled ⟨handle, ⟨workerRetryId, now, true⟩⟩
  | .error reason => return .outcome (recovery reason)

def candidateHandles (workers : List OrcaWorkerItem) : List String :=
  (workers.filterMap (·.agentTerminalHandle)).filter fun h => !(trim h).isEmpty

def quoted (s : String) : String := "'" ++ s ++ "'"

def stillPending (runId : String) (originalErr : OrcaError) : String :=
  "worker-start mutation is still pending in Orca for run " ++ quoted runId ++ ": " ++
    originalErr.text

def lookupFailed (originalErr e : OrcaError) : String :=
  "worker-start failed (" ++ originalErr.text ++ ") and request-show lookup transiently failed" ++
    ": " ++ e.text

def reconcileWorkerStartViaRequestShow (workerRetryId expectedRunId worktreeId : String)
    (originalErr : OrcaError) : Orca Value WorkerStartOutcome := do
  match ← requestShow workerRetryId with
  | .ok shown =>
    if shown.isCompleted then
      if shown.requestId ≠ workerRetryId then
        return .outcome (recovery ("request-show request_id mismatch: expected '" ++
          workerRetryId ++ "', got '" ++
          (if shown.requestId.isEmpty then "<empty>" else shown.requestId) ++
          "'; preserving evidence"))
      else
        match shown.receipt with
        | none =>
          return .outcome (recovery ("request-show completed for worker-start on run '" ++
            expectedRunId ++ "' but missing receipt: " ++ originalErr.text ++
            "; preserving evidence"))
        | some receipt =>
          match crates.parseWorkerStartResult receipt with
          | .error reason => return .outcome (recovery (reason ++ "; preserving evidence"))
          | .ok parsed => reconcileDispatch crates parsed workerRetryId expectedRunId worktreeId
    else if shown.isPending then
      return .outcome (retryable (stillPending expectedRunId originalErr))
    else if shown.isAbsent then
      if expectedRunId.isEmpty then
        return .outcome (recovery ("worker-start request was absent in Orca: " ++
          originalErr.text ++ "; preserving evidence"))
      else
        match ← listWorkers expectedRunId with
        | .ok workers =>
          if candidateHandles workers ≠ [] then
            return .outcome (recovery ("AMBIGUOUS_PREPARE_RETRY: orchestration run '" ++
              expectedRunId ++ "' already has candidate workers (" ++
              crates.debugList (candidateHandles workers) ++
              ") but worker-start request-show was absent; refusing duplicate worker-start"))
          else
            return .outcome (retryable ("worker-start request was absent in Orca and run '" ++
              expectedRunId ++ "' has no workers: " ++ originalErr.text ++
              "; safe to retry with stable request ID"))
        | .error e =>
          if isTransient e then
            return .outcome (retryable ("worker-start was absent (" ++ originalErr.text ++
              ") but listing workers for run '" ++ expectedRunId ++ "' failed transiently: " ++
              e.text))
          else
            return .outcome (recovery ("worker-start was absent (" ++ originalErr.text ++
              ") and listing workers for run '" ++ expectedRunId ++ "' failed: " ++ e.text ++
              "; preserving evidence"))
    else
      return .outcome (recovery ("worker-start request-show returned unexpected status '" ++
        crates.debug shown.state ++ "' on run '" ++ expectedRunId ++ "': " ++ originalErr.text ++
        "; preserving evidence"))
  | .error e =>
    if isTransient e then
      return .outcome (retryable (lookupFailed originalErr e))
    else
      return .outcome (recovery ("worker-start failed (" ++ originalErr.text ++
        ") and request-show lookup failed: " ++ e.text ++ "; preserving evidence"))

def launchWorkerAndReconcile (w : WorkerStart) : Orca Value WorkerStartOutcome := do
  match ← workerStart w with
  | .ok result => reconcileDispatch crates result w.requestId w.runId w.worktreeId
  | .error e => reconcileWorkerStartViaRequestShow crates w.requestId w.runId w.worktreeId e

/-- What `prepare` has resolved before it comes to the agent. -/
structure Resolved where
  orcaVersion : String
  worktreeId : String
  launchAgentId : String
  model : Option String
  deriving DecidableEq, Repr

def runObjective (attempt : ActiveAttempt) : String := "ceo:" ++ attempt.attemptId

def runRetryId (attempt : ActiveAttempt) : String :=
  crates.deriveMutationRequestId "run-create" attempt.attemptId

def workerRetryId (attempt : ActiveAttempt) : String :=
  crates.deriveMutationRequestId "worker-start-full-spec-v1" attempt.attemptId

def recordedTerminal (attempt : ActiveAttempt) : Option String :=
  attempt.executor.bind (·.terminalId)

/-- The run retry's text that `prepare` takes for the absence of the request. -/
def absentText : String := "request was absent in Orca"

/-- The outcome with the worker's terminal. -/
def readyWith (site : Resolved) (terminalId : String) (evidence : PreparedDispatchEvidence) :
    Orca Value (Except String PrepareOutcome) := do
  let now ← nowMillis
  return .ok (.ready ⟨⟨site.orcaVersion, site.worktreeId, terminalId, site.launchAgentId⟩, some now,
    some evidence⟩)

/-- A terminal is recorded: nothing is launched. -/
def prepareRecorded (attempt : ActiveAttempt) (site : Resolved) (existingTid : String) :
    List OrcaRunItem → Orca Value (Except String PrepareOutcome)
  | [] =>
    return .ok (recovery ("recorded terminal '" ++ existingTid ++
      "' exists but no unique orchestration run matches objective '" ++ runObjective attempt ++
      "'; preserving evidence"))
  | existingRun :: _ => do
    match ← validateWorkerTerminal crates existingTid site.worktreeId with
    | .error reason => return .ok (recovery reason)
    | .ok () =>
      match ← reconcileWorkerStartViaRequestShow crates (workerRetryId crates attempt)
          existingRun.id site.worktreeId (.orca "reconcile_existing_terminal"
            ("reconciling existing terminal '" ++ existingTid ++ "'")) with
      | .reconciled worker =>
        if worker.terminalHandle = existingTid then
          readyWith site existingTid worker.dispatchEvidence
        else
          return .ok (recovery ("recorded terminal '" ++ existingTid ++
            "' does not match recovered worker terminal '" ++ worker.terminalHandle ++
            "'; preserving evidence"))
      | .outcome (.retryable execution reason) =>
        if contains reason absentText then
          return .ok (recovery ("recorded terminal '" ++ existingTid ++
            "' exists but full-spec worker-start request-show was absent; " ++
            "refusing to adopt it as dispatch: " ++ reason))
        else
          return .ok (.retryable execution reason)
      | .outcome out => return .ok out

/-- `worker_start` on a run, and what comes of it. -/
def launchOn (attempt : ActiveAttempt) (site : Resolved)
    (executionPrompt coordinatorHandle runId : String) : Orca Value (Except String PrepareOutcome) := do
  match ← launchWorkerAndReconcile crates ⟨coordinatorHandle, runId, site.worktreeId,
      site.launchAgentId, site.model.filter (· ≠ "auto"), executionPrompt,
      workerRetryId crates attempt⟩ with
  | .reconciled worker => readyWith site worker.terminalHandle worker.dispatchEvidence
  | .outcome out => return .ok out

/-- The coordinator's terminal, for what is done with it. -/
def withCoordinator (attempt : ActiveAttempt) (site : Resolved)
    (next : String → Orca Value (Except String PrepareOutcome)) :
    Orca Value (Except String PrepareOutcome) := do
  let anchor ← resolveCoordinatorAnchorWorktree site.worktreeId
  match ← ensureCoordinatorTerminal anchor attempt.deviceId with
  | .error e => return .error ("failed to reconcile coordinator terminal: " ++ e)
  | .ok coordinatorHandle => next coordinatorHandle

/-- No run has the objective: one is created, or recovered from the request that created it. -/
def prepareFresh (attempt : ActiveAttempt) (site : Resolved) (executionPrompt : String) :
    Orca Value (Except String PrepareOutcome) :=
  withCoordinator attempt site fun coordinatorHandle => do
    match ← createRun coordinatorHandle (runObjective attempt) (runRetryId crates attempt) with
    | .ok run => launchOn crates attempt site executionPrompt coordinatorHandle run.id
    | .error e =>
      match ← requestShow (runRetryId crates attempt) with
      | .error _ => return .error ("failed to create orchestration run: " ++ e.text)
      | .ok shown =>
        if shown.isCompleted then
          match shown.receipt with
          | none => return .error ("request-show completed but missing receipt: " ++ e.text)
          | some receipt =>
            match crates.receiptRun receipt with
            | some run => launchOn crates attempt site executionPrompt coordinatorHandle run.id
            | none => return .error ("failed to recover run from request-show receipt: " ++ e.text)
        else if shown.isPending then
          return .ok (retryable ("run-create mutation is still pending in Orca: " ++ e.text))
        else
          return .error ("failed to create orchestration run: " ++ e.text)

/-- The error `prepare` gives for a run it found. -/
def existingRunErr (runId : String) : OrcaError :=
  .orca "reconcile_existing_run" ("reconciling existing run " ++ quoted runId)

/-- The run was created by an earlier call. -/
def prepareExisting (attempt : ActiveAttempt) (site : Resolved) (executionPrompt : String)
    (existingRun : OrcaRunItem) : Orca Value (Except String PrepareOutcome) := do
  match ← listWorkers existingRun.id with
  | .error e =>
    return .ok (recovery ("AMBIGUOUS_PREPARE_RETRY: failed to list workers for existing run '" ++
      existingRun.id ++ "': " ++ e.text))
  | .ok workers =>
    let handles := candidateHandles workers
    if handles.length > 1 then
      return .ok (recovery ("AMBIGUOUS_PREPARE_RETRY: multiple workers (" ++
        toString handles.length ++ ") found for existing orchestration run '" ++ existingRun.id ++
        "'; refusing duplicate worker-start"))
    else
      match ← reconcileWorkerStartViaRequestShow crates (workerRetryId crates attempt)
          existingRun.id site.worktreeId (existingRunErr existingRun.id) with
      | .reconciled worker =>
        match handles.head?.filter fun h => trim h ≠ trim worker.terminalHandle with
        | some inventoryHandle =>
          return .ok (recovery ("contradictory worker evidence on run '" ++ existingRun.id ++
            "': inventory has unique worker '" ++ trim inventoryHandle ++
            "' but full-spec worker-start receipt recovered '" ++ worker.terminalHandle ++
            "'; preserving evidence"))
        | none => readyWith site worker.terminalHandle worker.dispatchEvidence
      | .outcome (.retryable execution reason) =>
        if handles = [] ∧ contains reason absentText then
          withCoordinator attempt site fun coordinatorHandle =>
            launchOn crates attempt site executionPrompt coordinatorHandle existingRun.id
        else
          return .ok (.retryable execution reason)
      | .outcome out => return .ok out

def prepare (attempt : ActiveAttempt) (site : Resolved) (executionPrompt : String) :
    Orca Value (Except String PrepareOutcome) := do
  match ← supportsAgentSessionLaunch with
  | false =>
    return .ok (recovery ("ORCA_AGENT_SESSION_LAUNCH_UNAVAILABLE: installed Orca version does " ++
      "not expose the required orchestration Agent launch surface required by Connector"))
  | true =>
    match ← listRuns with
    | .error e => return .ok (recovery ("failed to list orchestration runs: " ++ e.text))
    | .ok runs =>
      let matchingRuns := runs.filter fun r => r.objective = some (runObjective attempt)
      if matchingRuns.length > 1 then
        return .ok (recovery ("multiple orchestration runs (" ++ toString matchingRuns.length ++
          ") found matching objective '" ++ runObjective attempt ++
          "'; failing closed to avoid ambiguous reconciliation"))
      else
        match recordedTerminal attempt with
        | some existingTid => prepareRecorded crates attempt site existingTid matchingRuns
        | none =>
          match matchingRuns with
          | [] => prepareFresh crates attempt site executionPrompt
          | existingRun :: _ => prepareExisting crates attempt site executionPrompt existingRun

end Adapter

end Ceo.Attempt.Launch
