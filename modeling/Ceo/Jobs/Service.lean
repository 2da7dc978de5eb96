import Ceo.Jobs.View

/-!
# The job coordinator

`JobCoordinatorV2` (`jobs/v2-service.ts`): the record a submission creates,
the arguments the methods hand to the store, and the read side. A reader
issues several Redis commands and others write in between, so a reading
function takes the store each of its commands meets.
-/

namespace Ceo.Jobs

open Ceo.Lib

/-- The largest time value of ECMAScript; `toISOString` throws past it. -/
def maxDateMs : Nat := 8640000000000000

/-! ### the other stores -/

structure ExecutionTarget where
  id : String
  workspaceId : String
  targetAlias : String
  disabledAtMs : Option Nat
  deriving DecidableEq, Repr

/-- What the coordinator asks of the identity and the control store. -/
structure Control where
  isUserActive : String → Bool
  isMember : String → String → Bool
  getExecutionTarget : String → Option ExecutionTarget
  /-- The targets of `listBindingsForDevice`, disabled bindings included. -/
  boundTargets : String → List String
  /-- The targets of `listEligibleTargetIdsForDevice`. -/
  eligibleTargets : String → List String

structure Scope where
  userId : String
  workspaceId : String

def assertHostWorkspaceAccess (control : Control) (scope : Scope) : Except V2Error Unit :=
  if scope.userId = "" ∨ scope.workspaceId = "" then
    .error (.workspaceAccessDenied "Workspace access denied.")
  else if !control.isUserActive scope.userId then
    .error (.workspaceAccessDenied "User is not active.")
  else if !control.isMember scope.workspaceId scope.userId then
    .error (.workspaceAccessDenied "User is not a member of the workspace.")
  else .ok ()

def assertDeviceTargetAccess (control : Control) (deviceId targetId : String) :
    Except V2Error Unit :=
  if (control.boundTargets deviceId).contains targetId then .ok () else .error .jobNotFound

/-! ### what the methods pass to the store -/

structure SubmitJobInput where
  requestId : String
  targetId : String
  prompt : String
  acceptance : String
  resourceId : Option String
  executionTimeoutSeconds : Nat
  resultTarget : ResultTarget

/-- The record `submit` creates at server time `now`, under a fresh id. -/
def submitRecord (scope : Scope) (input : SubmitJobInput) (jobId digest : String) (now : Nat) :
    JobRecordV2 :=
  { schemaVersion := jobsV2SchemaVersion
    jobId := jobId
    requestId := input.requestId
    userId := scope.userId
    workspaceId := scope.workspaceId
    targetId := input.targetId
    prompt := input.prompt
    acceptance := input.acceptance
    resourceId := input.resourceId
    executionTimeoutSeconds := input.executionTimeoutSeconds
    resultTarget := input.resultTarget
    requestDigest := digest
    status := .preparing
    streamEntryId := none
    latestAttemptId := none
    createdAtMs := now
    claimDeadlineMs := now + jobClaimTtlMsV2
    cancel := none }

def cancelReason (userId : String) : String :=
  "operator cancel by user " ++ userId ++ " via ceo-connector CLI"

/-- The arguments the coordinator's methods can pass: ids in their formats,
digests of SHA-256, and reports and results their schemas accept. -/
def Call.Passed : Call → Prop
  | .create job requestId =>
    ∃ scope input jobId digest now, now ≤ maxDateMs ∧
      job = submitRecord scope input jobId digest now ∧ requestId = input.requestId
  | .claim p =>
    attemptIdV2Re p.attemptId ∧ deviceIdV2Re p.deviceId ∧ hex64Re p.claimTokenSha256 ∧
      (p.isReplayOnly = true ∨ targetBindingIdV2Re p.targetBindingId)
  | .report _ rep => Guard.All (executionReportSchema rep)
  | .cancel p =>
    deviceIdV2Re p.deviceId ∧ hex64Re p.cancelReceiptSha256 ∧
      ∃ userId, jsLength userId ≤ 128 ∧ p.reason = cancelReason userId
  | .recordResult p result _ =>
    Guard.All (persistedJobResultSchema result) ∧ result.attemptId = p.attemptId
  | .start _ | .setFence _ _ | .pruneTargetQueue _ _ => True

/-! ### what a reader shows -/

/-- `new Date(ms).toISOString()`, which renders each time in its own way; the text is left out. -/
def toIso (ms : Nat) : Except V2Error Nat :=
  if ms ≤ maxDateMs then .ok ms else .error .invalidTimeValue

def toIsoOpt : Option Nat → Except V2Error (Option Nat)
  | none => .ok none
  | some ms => (toIso ms).map some

structure HostJobSummary where
  jobId : String
  requestId : String
  targetId : String
  targetAlias : String
  state : HostJobState
  executionStatus : Option ExecutionStatus
  businessOutcome : Option BusinessOutcome
  createdAt : Nat
  expiresAt : Option Nat
  resourceId : Option String
  resultTarget : ResultTarget
  deriving DecidableEq, Repr

structure ExecutionView where
  attemptId : String
  phase : AttemptPhase
  claimedAt : Nat
  startedAt : Option Nat
  deriving DecidableEq, Repr

structure ReportView where
  report : ExecutionReport
  finishedAt : Nat
  receivedAt : Nat
  deriving DecidableEq, Repr

structure ResultView where
  attemptId : String
  payloadSha256 : String
  resourceId : String
  commit : String
  receivedAt : Nat
  deriving DecidableEq, Repr

structure TaskView where
  prompt : String
  acceptance : String
  timeoutSeconds : Nat
  deriving DecidableEq, Repr

structure HostJobDetail extends HostJobSummary where
  executionTimeoutSeconds : Nat
  execution : Option ExecutionView
  report : Option ReportView
  result : Option ResultView
  task : Option TaskView
  deriving DecidableEq, Repr

def resolveHostJobTargetAlias (control : Control) (job : JobRecordV2) : Except V2Error String :=
  match control.getExecutionTarget job.targetId with
  | none => .ok job.targetId
  | some target =>
    if target.id ≠ job.targetId ∨ target.workspaceId ≠ job.workspaceId then
      .error (.store .corruptTargetState)
    else .ok target.targetAlias

/-- The attempt the job names, with its linkage checked. -/
def hostAttempt (job : JobRecordV2) (r : Redis) : Except V2Error (Option AttemptRecordV1) :=
  match job.latestAttemptId with
  | none => .ok none
  | some attemptId => do
    match ← getAttempt r attemptId with
    | none => .error (.store .corruptAttemptLinkage)
    | some attempt =>
      if attempt.jobId ≠ job.jobId ∨ attempt.workspaceId ≠ job.workspaceId ∨
          attempt.targetId ≠ job.targetId ∨ attempt.userId ≠ job.userId then
        .error (.store .corruptAttemptLinkage)
      else return some attempt

/-- Only a job that can still be claimed shows when it expires. -/
def hostExpiresAt (job : JobRecordV2) (state : HostJobState) : Except V2Error (Option Nat) :=
  toIsoOpt (if state = .queued ∨ state = .expired then some job.claimDeadlineMs else none)

/-- The summary of a job and its attempt once their state is known. -/
def hostSummary (control : Control) (job : JobRecordV2) (attempt : Option AttemptRecordV1)
    (state : HostJobState) : Except V2Error HostJobSummary := do
  let targetAlias ← resolveHostJobTargetAlias control job
  let expiresAt ← hostExpiresAt job state
  let createdAt ← toIso job.createdAtMs
  return {
    jobId := job.jobId
    requestId := job.requestId
    targetId := job.targetId
    targetAlias := targetAlias
    state := state
    executionStatus := jobExecutionStatusView job attempt
    businessOutcome := jobBusinessOutcomeView job attempt
    createdAt := createdAt
    expiresAt := expiresAt
    resourceId := job.resourceId
    resultTarget := job.resultTarget }

def executionView : Option AttemptRecordV1 → Except V2Error (Option ExecutionView)
  | none => .ok none
  | some attempt => do
    let claimedAt ← toIso attempt.claimedAtMs
    -- a start time of 0 counts as none
    let startedAt ← toIsoOpt (attempt.startedAtMs.filter (· ≠ 0))
    return some ⟨attempt.attemptId, attempt.phase, claimedAt, startedAt⟩

def reportView : Option PersistedExecutionReport → Except V2Error (Option ReportView)
  | none => .ok none
  | some report => do
    let finishedAt ← toIso report.finishedAtMs
    let receivedAt ← toIso report.receivedAtMs
    return some ⟨report.toExecutionReport, finishedAt, receivedAt⟩

def resultView : Option PersistedJobResult → Except V2Error (Option ResultView)
  | none => .ok none
  | some result => do
    let receivedAt ← toIso result.receivedAtMs
    return some ⟨result.attemptId, result.payloadSha256, result.resourceId, result.commit, receivedAt⟩

/-! ### getJobForHost -/

/-- `atJob` is the store the job is read from, `atAttempt` the one its attempt is read from. -/
def getJobForHost (control : Control) (scope : Scope) (jobId : String) (includeTask : Bool)
    (nowMs : Nat) (atJob atAttempt : Redis) : Except V2Error HostJobDetail := do
  assertHostWorkspaceAccess control scope
  if !jobIdV2Re jobId then
    .error (.validation "Invalid job_id format.")
  else
    match ← getJob atJob jobId with
    | none => .error .jobNotFound
    | some job =>
      if job.workspaceId ≠ scope.workspaceId then .error .jobNotFound
      else
        let attempt ← hostAttempt job atAttempt
        let state ← deriveHostJobState job attempt nowMs
        let summary ← hostSummary control job attempt state
        let execution ← executionView attempt
        let report ← reportView (attempt.bind (·.report))
        let result ← resultView (attempt.bind (·.result))
        return {
          toHostJobSummary := summary
          executionTimeoutSeconds := job.executionTimeoutSeconds
          execution := execution
          report := report
          result := result
          task := if includeTask then
            some ⟨job.prompt, job.acceptance, job.executionTimeoutSeconds⟩ else none }

/-! ### listJobsForHost -/

structure ListJobsQuery where
  targetId : Option String
  state : Option HostJobState
  executionStatus : Option ExecutionStatus
  limit : Option Int
  cursor : Option StreamId

def jobListDefaultLimit : Int := 20
def jobListMaxLimit : Int := 50
def jobListScanBatch : Nat := 64
def jobListMaxScanned : Nat := 256

/-- `XREVRANGE` from just below `before`: newest first, at most `count` rows. -/
def readJobStreamReverse (r : Redis) (before : Option StreamId) (count : Nat) :
    List (StreamId × JobStreamEntryV2) :=
  let below (i : StreamId) : Bool :=
    match before with
    | none => true
    | some b => i.ms < b.ms || (i.ms == b.ms && i.seq < b.seq)
  (r.stream.reverse.filter fun row => below row.1).take count

def streamEntryGuards (e : JobStreamEntryV2) : List Guard :=
  [⟨e.schemaVersion == streamV2SchemaVersion,
    "Unsupported stream entry schema_version '" ++ toString e.schemaVersion ++ "'; expected 2."⟩,
   ⟨jobIdV2Re e.jobId, "Invalid stream entry: 'job_id' must be formatted as job-<uuid>."⟩,
   ⟨tenantIdOk e.userId, "Invalid stream entry: 'user_id' must be a non-empty string."⟩,
   ⟨tenantIdOk e.workspaceId, "Invalid stream entry: 'workspace_id' must be a non-empty string."⟩,
   ⟨targetIdV2Re e.targetId, "Invalid stream entry: 'target_id' must be formatted as tgt_<uuid>."⟩,
   ⟨e.createdAtMs ≤ maxSafeInteger,
    "Invalid stream entry: 'created_at_ms' must be a valid integer timestamp."⟩]

/-- The job record a row points to, checked against the row. -/
def listedJob (row : JobStreamEntryV2) (r : Redis) : Except V2Error JobRecordV2 := do
  match ← getJob r row.jobId with
  | none => .error (.store .corruptJobIndex)
  | some job =>
    if job.jobId ≠ row.jobId ∨ job.userId ≠ row.userId ∨ job.workspaceId ≠ row.workspaceId ∨
        job.targetId ≠ row.targetId ∨ job.createdAtMs ≠ row.createdAtMs then
      .error (.store .corruptJobIndex)
    else return job

def targetFilter (query : ListJobsQuery) (job : JobRecordV2) : Bool :=
  optAll (fun t => job.targetId == t) query.targetId

/-- The filters on state and execution status. -/
def listFilter (query : ListJobsQuery) (attempt : Option AttemptRecordV1) (state : HostJobState) :
    Bool :=
  optAll (fun s => state == s) query.state &&
  optAll (fun s => (attempt.bind (·.report)).map (·.executionStatus) == some s) query.executionStatus

/-- One row of the caller's own workspace: the summary to show, or none when a filter drops it. -/
def listedRow (control : Control) (query : ListJobsQuery) (nowMs : Nat) (row : JobStreamEntryV2)
    (atJob atAttempt : Redis) : Except V2Error (Option HostJobSummary) := do
  let job ← listedJob row atJob
  if !targetFilter query job then return none
  else
    let attempt ← hostAttempt job atAttempt
    let state ← deriveHostJobState job attempt nowMs
    if listFilter query attempt state then
      let summary ← hostSummary control job attempt state
      return some summary
    else return none

/-- Where a list call is: the next moment it reads Redis at (a row has two,
and may leave the second unused), how far down the stream it is, and what it
has found. -/
structure Scan where
  moment : Nat
  cursor : Option StreamId
  jobs : List HostJobSummary
  totalScanned : Nat
  nextCursor : Option StreamId

/-- On to the next row, unless the scan has used up its rows. -/
def Scan.skip (s : Scan) (id : StreamId) : Scan × Bool :=
  if jobListMaxScanned ≤ s.totalScanned then ({ s with nextCursor := some id }, true) else (s, false)

/-- The loop body for one row; `true` when it breaks off. -/
def scanRow (control : Control) (scope : Scope) (query : ListJobsQuery) (nowMs limit : Nat)
    (stores : Nat → Redis) (row : StreamId × JobStreamEntryV2) (s : Scan) :
    Except V2Error (Scan × Bool) := do
  let s := { s with totalScanned := s.totalScanned + 1, cursor := some row.1 }
  if !tenantIdOk row.2.workspaceId then .error (.store .corruptJobIndex)
  else if row.2.workspaceId ≠ scope.workspaceId then return s.skip row.1
  else
    match Guard.run (streamEntryGuards row.2) with
    | .error _ => .error (.store .corruptJobIndex)
    | .ok () =>
      let found ← listedRow control query nowMs row.2 (stores s.moment) (stores (s.moment + 1))
      let s := { s with moment := s.moment + 2 }
      match found with
      | none => return s.skip row.1
      | some summary =>
        let s := { s with jobs := s.jobs ++ [summary] }
        if limit ≤ s.jobs.length then return ({ s with nextCursor := some row.1 }, true)
        else return s.skip row.1

def scanRows (control : Control) (scope : Scope) (query : ListJobsQuery) (nowMs limit : Nat)
    (stores : Nat → Redis) : List (StreamId × JobStreamEntryV2) → Scan → Except V2Error Scan
  | [], s => return s
  | row :: rows, s => do
    let (s, stop) ← scanRow control scope query nowMs limit stores row s
    if stop then return s else scanRows control scope query nowMs limit stores rows s

/-- The batches, one `XREVRANGE` each. A batch that does not end the scan
moves it on, so `jobListMaxScanned` batches are enough. -/
def scanBatches (control : Control) (scope : Scope) (query : ListJobsQuery) (nowMs limit : Nat)
    (stores : Nat → Redis) : Nat → Scan → Except V2Error Scan
  | 0, s => return s
  | fuel + 1, s =>
    if s.jobs.length < limit ∧ s.totalScanned < jobListMaxScanned then do
      let batchToFetch := min jobListScanBatch (jobListMaxScanned - s.totalScanned)
      let rows := readJobStreamReverse (stores s.moment) s.cursor batchToFetch
      if rows = [] then return { s with nextCursor := none }
      else
        let s ← scanRows control scope query nowMs limit stores rows
          { s with moment := s.moment + 1 }
        if rows.length < batchToFetch ∧ s.jobs.length < limit ∧
            s.totalScanned < jobListMaxScanned then
          return { s with nextCursor := none }
        else scanBatches control scope query nowMs limit stores fuel s
    else return s

def listTargetAllowed (control : Control) (scope : Scope) : Option String → Except V2Error Unit
  | none => .ok ()
  | some targetId =>
    if !targetIdV2Re targetId then .error (.validation "Invalid target_id format.")
    else
      match control.getExecutionTarget targetId with
      | some target => if target.workspaceId ≠ scope.workspaceId then .error .targetNotFound else .ok ()
      | none => .ok ()

/-- `stores k` is the store at the `k`-th moment the call reads Redis. -/
def listJobsForHost (control : Control) (scope : Scope) (query : ListJobsQuery) (nowMs : Nat)
    (stores : Nat → Redis) : Except V2Error (List HostJobSummary × Option StreamId) := do
  assertHostWorkspaceAccess control scope
  listTargetAllowed control scope query.targetId
  let limit := (min (max 1 (query.limit.getD jobListDefaultLimit)) jobListMaxLimit).toNat
  let s ← scanBatches control scope query nowMs limit stores jobListMaxScanned
    { moment := 0, cursor := query.cursor, jobs := [], totalScanned := 0, nextCursor := none }
  return (s.jobs, s.nextCursor)

/-! ### getPendingJobs -/

structure PendingJobSummary where
  jobId : String
  workspaceId : String
  targetId : String
  resourceId : Option String
  createdAt : Nat
  expiresAt : Option Nat
  deriving DecidableEq, Repr

/-- One candidate of a queue: what to show for it, or none when it is pruned instead. -/
def pendingJob (targetId : String) (nowMs : Nat) (jobId : String) (r : Redis) :
    Except V2Error (Option PendingJobSummary) := do
  match ← getJob r jobId with
  | none => return none
  | some job =>
    if job.status ≠ .queued then return none
    else if 0 < job.claimDeadlineMs ∧ job.claimDeadlineMs ≤ nowMs then return none
    else if job.targetId ≠ targetId then return none
    else
      let createdAt ← toIso job.createdAtMs
      let expiresAt ← toIsoOpt (if 0 < job.claimDeadlineMs then some job.claimDeadlineMs else none)
      return some ⟨job.jobId, job.workspaceId, job.targetId, job.resourceId, createdAt, expiresAt⟩

structure Candidate where
  jobId : String
  createdAtMs : Nat
  targetId : String
  deriving DecidableEq, Repr

def getQueuedJobIdsForTarget (r : Redis) (targetId : String) (limit : Nat) : List Candidate :=
  ((r.targetQueues targetId).take limit).map fun e => ⟨e.1, e.2, targetId⟩

/-- The loop over the sorted candidates, one job read each. -/
def pendingLoop (nowMs limit : Nat) (stores : Nat → Redis) :
    List Candidate → Nat → List PendingJobSummary → Except V2Error (List PendingJobSummary)
  | [], _, results => return results
  | c :: cs, k, results =>
    if limit ≤ results.length then return results
    else do
      match ← pendingJob c.targetId nowMs c.jobId (stores k) with
      | none => pendingLoop nowMs limit stores cs (k + 1) results
      | some job => pendingLoop nowMs limit stores cs (k + 1) (results ++ [job])

/-- The queues are read in turn, then the candidates oldest first (a stable sort). -/
def getPendingJobs (control : Control) (deviceId : String) (limit : Int) (nowMs : Nat)
    (stores : Nat → Redis) : Except V2Error (List PendingJobSummary) :=
  let boundedLimit := (min (max 1 limit) 50).toNat
  let targets := control.eligibleTargets deviceId
  let candidates := (targets.zipIdx.map fun t =>
    getQueuedJobIdsForTarget (stores t.2) t.1 boundedLimit).flatten
  let sorted := candidates.mergeSort fun a b => a.createdAtMs ≤ b.createdAtMs
  pendingLoop nowMs boundedLimit stores sorted targets.length []

/-! ### cancelJobForDevice -/

inductive CancelAction where
  | cancelled | alreadyCancelled | alreadyTerminal
  deriving DecidableEq, Repr

structure JobCancelResult where
  jobId : String
  previousState : HostJobState
  executionStatus : ExecutionStatus
  businessOutcome : BusinessOutcome
  action : CancelAction
  attemptId : Option String
  message : String
  deriving DecidableEq, Repr

def jobCancelMaxRaceRetries : Nat := 3

def ExecutionStatus.text : ExecutionStatus → String
  | .completed => "COMPLETED"
  | .failed => "FAILED"
  | .timedOut => "TIMED_OUT"
  | .cancelled => "CANCELLED"
  | .blocked => "BLOCKED"
  | .interrupted => "INTERRUPTED"

def alreadyCancelledMessage : String := "Job was already cancelled by operator. No change."

def cancelledMessage : HostJobState → String
  | .running =>
    "Running job terminalized by operator cancel. The owning Connector will observe the cancellation and stop."
  | .claimed => "Claimed job cancelled by operator before execution started."
  | _ => "Job cancelled before claim. No attempt was created."

/-- The reads of one round and the state it derives from them. -/
def cancelPreRead (control : Control) (deviceId jobId : String) (nowMs : Nat)
    (atJob atAttempt : Redis) :
    Except V2Error (JobRecordV2 × Option AttemptRecordV1 × HostJobState) := do
  match ← getJob atJob jobId with
  | none => .error .jobNotFound
  | some job =>
    assertDeviceTargetAccess control deviceId job.targetId
    let attempt ←
      match job.latestAttemptId with
      | none => .ok none
      | some attemptId => getAttempt atAttempt attemptId
    let previousState ← deriveHostJobState job attempt nowMs
    return (job, attempt, previousState)

/-- The answer for a job the reads found ended. -/
def cancelEnded (job : JobRecordV2) (attempt : Option AttemptRecordV1) : JobCancelResult :=
  let executionStatus := (jobExecutionStatusView job attempt).getD .cancelled
  { jobId := job.jobId
    previousState := .terminal
    executionStatus := executionStatus
    businessOutcome := (jobBusinessOutcomeView job attempt).getD .notStarted
    action := if executionStatus = .cancelled then .alreadyCancelled else .alreadyTerminal
    attemptId := attempt.map (·.attemptId)
    message := if executionStatus = .cancelled then alreadyCancelledMessage else
      "Job already finished with execution status '" ++ executionStatus.text ++
        "'. History preserved; not rewritten to CANCELLED." }

/-- The answer for a job the script was run on. -/
def cancelAnswered (job : JobRecordV2) (previousState : HostJobState) (outcome : JobCancelOutcome) :
    JobCancelResult :=
  { jobId := job.jobId
    previousState := previousState
    executionStatus := outcome.executionStatus
    businessOutcome := outcome.businessOutcome
    action := if outcome.result = .cancelled then .cancelled else .alreadyCancelled
    attemptId := outcome.attemptId
    message := if outcome.result = .cancelled then cancelledMessage previousState
      else alreadyCancelledMessage }

/-- What one round meets: the service clock, the stores of its two reads, and
the Redis clock and store of its script. -/
structure CancelReads where
  nowMs : Nat
  atJob : Redis
  atAttempt : Redis
  scriptTime : Nat
  atScript : Redis

section cancel

variable (control : Control) (sha256 : String → String) (deviceId userId jobId : String)

def cancelParams (job : JobRecordV2) : CancelParams :=
  { jobId := job.jobId
    expectedAttemptId := job.latestAttemptId
    expectedTargetId := job.targetId
    deviceId := deviceId
    reason := cancelReason userId
    cancelReceiptSha256 := sha256 ("ceo:operator-cancel\x00" ++ job.jobId ++ "\x00" ++
      job.latestAttemptId.getD "" ++ "\x00" ++ deviceId) }

/-- One round: its answer, or none when it lost a race, and the store it leaves. -/
def cancelRound (x : CancelReads) : Option (Except V2Error JobCancelResult) × Redis :=
  match cancelPreRead control deviceId jobId x.nowMs x.atJob x.atAttempt with
  | .error e => (some (.error e), x.atScript)
  | .ok (job, attempt, previousState) =>
    if previousState = .terminal then (some (.ok (cancelEnded job attempt)), x.atScript)
    else
      match cancelJob x.scriptTime (cancelParams sha256 deviceId userId job) x.atScript with
      | (.error .cancelRace, r) => (none, r)
      | (.error e, r) => (some (.error e), r)
      | (.ok outcome, r) => (some (.ok (cancelAnswered job previousState outcome)), r)

/-- The rounds from number `round` on, `n` of them at most. -/
def cancelRounds (reads : Nat → CancelReads) : Nat → Nat → Except V2Error JobCancelResult
  | 0, _ => .error (.store .cancelRaceExhausted)
  | n + 1, round =>
    match (cancelRound control sha256 deviceId userId jobId (reads round)).1 with
    | some answer => answer
    | none => cancelRounds reads n (round + 1)

def cancelJobForDevice (reads : Nat → CancelReads) : Except V2Error JobCancelResult :=
  if !jobIdV2Re jobId then .error (.validation "Invalid job_id format.")
  else cancelRounds control sha256 deviceId userId jobId reads jobCancelMaxRaceRetries 0

end cancel

end Ceo.Jobs
