import Ceo.Jobs.Cjson
import Mathlib.Logic.Function.Basic

/-!
# The store scripts

Redis as the server uses it, one map per key family, and the Lua scripts of
`jobs/v2-assignment-script.ts` as functions of the Redis clock `now`, their
KEYS, their ARGV and the store. A script's reply and its writes come
together: Redis runs it in one step.

Every key of a family holds the type the scripts expect, and every stored
value decodes, so the `badtype` and `pcall` branches cannot be taken and are
left out.
-/

namespace Ceo.Jobs

open Ceo.Lib Function

/-! ### the store -/

/-- A sorted set in the order `ZRANGE` reads it. -/
abbrev Zset := List (String × Nat)

def zrem (z : Zset) (m : String) : Zset := z.filter fun e => e.1 != m

def zinsert (m : String) (score : Nat) : Zset → Zset
  | [] => [(m, score)]
  | e :: z =>
    if score < e.2 || (score == e.2 && m < e.1) then (m, score) :: e :: z
    else e :: zinsert m score z

def zadd (z : Zset) (m : String) (score : Nat) : Zset := zinsert m score (zrem z m)

structure StreamId where
  ms : Nat
  seq : Nat
  deriving DecidableEq, Repr

def StreamId.text (i : StreamId) : String := toString i.ms ++ "-" ++ toString i.seq

/-- The id `XADD … *` gives the next entry. -/
def StreamId.next (last : StreamId) (now : Nat) : StreamId :=
  if last.ms < now then ⟨now, 0⟩ else ⟨last.ms, last.seq + 1⟩

/-- A delete fence: the value `<started_ms>:<token>` and the time `PX` drops it. -/
structure DeleteFence where
  startedMs : Nat
  token : String
  expiresAtMs : Nat
  deriving DecidableEq, Repr

structure Redis where
  requests : String → Option String
  jobs : String → Option JobRecordV2
  attempts : String → Option AttemptRecordV1
  jobAttempts : String → Zset
  stream : List (StreamId × JobStreamEntryV2)
  targetQueues : String → Zset
  fences : String → Option DeleteFence

namespace Redis

def empty : Redis where
  requests _ := none
  jobs _ := none
  attempts _ := none
  jobAttempts _ := []
  stream := []
  targetQueues _ := []
  fences _ := none

def lastStreamId (r : Redis) : StreamId := (r.stream.getLast?.map Prod.fst).getD ⟨0, 0⟩

/-- `SET` of a job record, through `cjson.encode`. -/
def setJob (r : Redis) (id : String) (job : JobRecordV2) : Redis :=
  { r with jobs := update r.jobs id (some (Cjson.encodeJob job)) }

def setAttempt (r : Redis) (id : String) (attempt : AttemptRecordV1) : Redis :=
  { r with attempts := update r.attempts id (some (Cjson.encodeAttempt attempt)) }

def zremTargetQueue (r : Redis) (target id : String) : Redis :=
  { r with targetQueues := update r.targetQueues target (zrem (r.targetQueues target) id) }

/-- `GET` of a fence key: nothing once its `PX` has run out. -/
def getFence (r : Redis) (target : String) (now : Nat) : Option DeleteFence :=
  (r.fences target).filter fun f => now < f.expiresAtMs

/-- A fence younger than the fence TTL by its own started time. -/
def fenced (r : Redis) (target : String) (now : Nat) : Bool :=
  match r.getFence target now with
  | none => false
  | some f => now - f.startedMs < targetDeleteFenceTtlMs

end Redis

inductive ScriptError where
  | targetDeleteFenced (targetId : String)
  | jobIdCollision
  | jobNotFound
  | corruptAttemptRecord
  | corruptJobRecord
  | idempotencyConflict
  | jobFinished
  | notOwnerReplay
  | jobAlreadyClaimed
  | jobExpired
  | attemptIdCollision
  | attemptNotFound
  | jobNotActive
  | attemptMismatch
  | identityMismatch
  | invalidAttemptPhase (phase : AttemptPhase)
  | invalidJobStatus (status : JobStatus)
  | invalidReportSchemaVersion
  | invalidReportReceiptSha256
  | completedReportHasError
  | invalidReportErrorShape
  | undispatchedReportOutcomeInvalid
  | unverifiedOutcomeRequiresDispatched
  | reportConflict
  | dispatchedReportRequiresRunning
  | cancelRace
  | staleResultSubmission
  deriving DecidableEq, Repr

/-! ### V2_CREATE_JOB_SCRIPT -/

structure CreateKeys where
  request : String
  job : String
  targetQueue : String
  deleteFence : String

structure CreateArgs where
  jobId : String
  userId : String
  workspaceId : String
  targetId : String
  createdAtMs : Nat
  record : JobRecordV2

inductive CreateReply where
  | existingRequest (jobId : String)
  | created (jobId streamEntryId : String)
  deriving DecidableEq, Repr

/-- The job is first written as `preparing` and, before the script ends, again as `queued`. -/
def v2CreateJobScript (now : Nat) (keys : CreateKeys) (argv : CreateArgs) (r : Redis) :
    Except ScriptError CreateReply × Redis :=
  match r.requests keys.request with
  | some existingJobId => (.ok (.existingRequest existingJobId), r)
  | none =>
    if r.fenced keys.deleteFence now then (.error (.targetDeleteFenced argv.targetId), r)
    else if (r.jobs keys.job).isSome then (.error .jobIdCollision, r)
    else
      let entry := r.lastStreamId.next now
      let prep := { argv.record with
        status := .queued, streamEntryId := some entry.text, latestAttemptId := none }
      let row : JobStreamEntryV2 :=
        { schemaVersion := streamV2SchemaVersion
          jobId := argv.jobId
          userId := argv.userId
          workspaceId := argv.workspaceId
          targetId := argv.targetId
          createdAtMs := argv.createdAtMs }
      let queue := zadd (r.targetQueues keys.targetQueue) argv.jobId argv.createdAtMs
      (.ok (.created argv.jobId entry.text),
        { r.setJob keys.job prep with
          requests := update r.requests keys.request (some argv.jobId)
          stream := r.stream ++ [(entry, row)]
          targetQueues := update r.targetQueues keys.targetQueue queue })

/-! ### V2_CLAIM_JOB_SCRIPT -/

structure ClaimKeys where
  job : String
  targetQueue : String
  jobAttempts : String
  attempt : String
  deleteFence : String

structure ClaimArgs where
  jobId : String
  workspaceId : String
  targetId : String
  deviceId : String
  targetBindingId : String
  attemptId : String
  claimTokenSha256 : String
  isReplayOnly : Bool

inductive ClaimReply where
  | claimed (attempt : AttemptRecordV1) (serverTimeMs : Nat)
  | replayed (attempt : AttemptRecordV1) (serverTimeMs : Nat)
  deriving DecidableEq, Repr

def claimReplay (now : Nat) (argv : ClaimArgs) : Option AttemptRecordV1 → Except ScriptError ClaimReply
  | none => .error .corruptAttemptRecord
  | some attempt =>
    if attempt.attemptId ≠ argv.attemptId ∨ attempt.jobId ≠ argv.jobId ∨
        attempt.workspaceId ≠ argv.workspaceId ∨ attempt.targetId ≠ argv.targetId ∨
        attempt.deviceId ≠ argv.deviceId ∨ attempt.claimTokenSha256 ≠ argv.claimTokenSha256 then
      .error .idempotencyConflict
    else
      match attempt.phase with
      | .claimed | .running => .ok (.replayed (Cjson.encodeAttempt attempt) now)
      | .terminal => .error .jobFinished

def newAttempt (now : Nat) (job : JobRecordV2) (argv : ClaimArgs) : AttemptRecordV1 :=
  { schemaVersion := 1
    attemptId := argv.attemptId
    jobId := job.jobId
    userId := job.userId
    workspaceId := job.workspaceId
    targetId := job.targetId
    deviceId := argv.deviceId
    targetBindingId := argv.targetBindingId
    claimTokenSha256 := argv.claimTokenSha256
    phase := .claimed
    claimedAtMs := now
    startedAtMs := none
    report := none
    result := none }

def v2ClaimJobScript (now : Nat) (keys : ClaimKeys) (argv : ClaimArgs) (r : Redis) :
    Except ScriptError ClaimReply × Redis :=
  if r.fenced keys.deleteFence now then (.error (.targetDeleteFenced argv.targetId), r)
  else
    match r.jobs keys.job with
    | none => (.error .jobNotFound, r)
    | some job =>
      if job.jobId ≠ argv.jobId ∨ job.workspaceId ≠ argv.workspaceId ∨
          job.targetId ≠ argv.targetId then
        (.error .jobNotFound, r)
      else if job.latestAttemptId = some argv.attemptId then
        (claimReplay now argv (r.attempts keys.attempt), r)
      else if argv.isReplayOnly then (.error .notOwnerReplay, r)
      else if job.status ≠ .queued then (.error .jobAlreadyClaimed, r)
      else if 0 < job.claimDeadlineMs ∧ job.claimDeadlineMs ≤ now then
        (.error .jobExpired, r.zremTargetQueue keys.targetQueue argv.jobId)
      else if (r.attempts keys.attempt).isSome then (.error .attemptIdCollision, r)
      else
        let attempt := newAttempt now job argv
        let index := zadd (r.jobAttempts keys.jobAttempts) argv.attemptId now
        (.ok (.claimed (Cjson.encodeAttempt attempt) now),
          { ((r.setAttempt keys.attempt attempt).setJob keys.job
              { job with status := .active, latestAttemptId := some argv.attemptId }).zremTargetQueue
                keys.targetQueue argv.jobId with
            jobAttempts := update r.jobAttempts keys.jobAttempts index })

/-! ### V2_START_JOB_SCRIPT -/

structure AttemptKeys where
  job : String
  attempt : String

structure AttemptArgs where
  attemptId : String
  deviceId : String
  claimTokenSha256 : String

/-- The shape checks start and report make before they look at anything else. -/
def attemptShapeOk (attempt : AttemptRecordV1) : Bool :=
  attempt.schemaVersion == 1 && attempt.targetBindingId != "" &&
  utf8ByteLength attempt.claimTokenSha256 == 64 &&
  !(attempt.phase == .claimed && attempt.startedAtMs.isSome) &&
  !(attempt.phase == .running && attempt.startedAtMs.isNone)

def identityMatches (attempt : AttemptRecordV1) (job : JobRecordV2) (argv : AttemptArgs) : Bool :=
  attempt.attemptId == argv.attemptId && attempt.jobId == job.jobId &&
  attempt.workspaceId == job.workspaceId && attempt.targetId == job.targetId &&
  attempt.deviceId == argv.deviceId && attempt.claimTokenSha256 == argv.claimTokenSha256

inductive StartReply where
  | started (attempt : AttemptRecordV1) (serverTimeMs : Nat)
  | replayed (attempt : AttemptRecordV1) (serverTimeMs : Nat)
  deriving DecidableEq, Repr

def v2StartJobScript (now : Nat) (keys : AttemptKeys) (argv : AttemptArgs) (r : Redis) :
    Except ScriptError StartReply × Redis :=
  match r.jobs keys.job, r.attempts keys.attempt with
  | none, _ => (.error .jobNotFound, r)
  | some _, none => (.error .attemptNotFound, r)
  | some job, some attempt =>
    if !attemptShapeOk attempt then (.error .corruptAttemptRecord, r)
    else if job.status ≠ .active ∨ job.latestAttemptId ≠ some argv.attemptId then
      (.error .jobNotActive, r)
    else if !identityMatches attempt job argv then (.error .identityMismatch, r)
    else
      match attempt.phase with
      | .running => (.ok (.replayed (Cjson.encodeAttempt attempt) now), r)
      | .terminal => (.error (.invalidAttemptPhase .terminal), r)
      | .claimed =>
        let attempt := { attempt with phase := .running, startedAtMs := some now }
        (.ok (.started (Cjson.encodeAttempt attempt) now), r.setAttempt keys.attempt attempt)

/-! ### V2_REPORT_JOB_SCRIPT -/

inductive ReportReply where
  | reported (serverTimeMs : Nat)
  | replayed (serverTimeMs : Nat)
  deriving DecidableEq, Repr

/-- The script's own validation of a report. -/
def reportInvariants (rep : ExecutionReport) : Except ScriptError Unit :=
  if rep.schemaVersion ≠ 2 then .error .invalidReportSchemaVersion
  else if utf8ByteLength rep.receiptSha256 ≠ 64 then .error .invalidReportReceiptSha256
  else if rep.executionStatus = .completed ∧ rep.error ≠ none then .error .completedReportHasError
  else if rep.executionStatus ≠ .completed ∧ rep.error = none then .error .invalidReportErrorShape
  else if rep.taskDispatched = false ∧ rep.businessOutcome ≠ .notStarted then
    .error .undispatchedReportOutcomeInvalid
  else if rep.businessOutcome = .unverified ∧ rep.taskDispatched = false then
    .error .unverifiedOutcomeRequiresDispatched
  else .ok ()

/-- The stored report agrees with a new one on all that a report says. -/
def semMatch (ar : PersistedExecutionReport) (rep : ExecutionReport) : Bool :=
  ar.schemaVersion == rep.schemaVersion &&
  ar.executionStatus == rep.executionStatus &&
  ar.businessOutcome == rep.businessOutcome &&
  ar.taskDispatched == rep.taskDispatched &&
  ar.finishedAtMs == rep.finishedAtMs &&
  ar.durationMs == rep.durationMs &&
  ar.receiptSha256 == rep.receiptSha256 &&
  (ar.executor.type == rep.executor.type && ar.executor.version == rep.executor.version) &&
  ar.error == rep.error

def reportReplay (now : Nat) (rep : ExecutionReport) :
    Option PersistedExecutionReport → Except ScriptError ReportReply
  | none => .error .corruptAttemptRecord
  | some ar => if semMatch ar rep then .ok (.replayed now) else .error .reportConflict

/-- What stops a report that is new and well formed. -/
def reportTransition (job : JobRecordV2) (attempt : AttemptRecordV1) (rep : ExecutionReport) :
    Option ScriptError :=
  if job.status ≠ .active then some (.invalidJobStatus job.status)
  else if rep.taskDispatched = false then
    if attempt.phase ≠ .claimed ∧ attempt.phase ≠ .running then
      some (.invalidAttemptPhase attempt.phase)
    else none
  else if attempt.phase ≠ .running ∨ attempt.startedAtMs = none then
    some .dispatchedReportRequiresRunning
  else none

def v2ReportJobScript (now : Nat) (keys : AttemptKeys) (argv : AttemptArgs) (rep : ExecutionReport)
    (r : Redis) : Except ScriptError ReportReply × Redis :=
  match r.jobs keys.job, r.attempts keys.attempt with
  | none, _ => (.error .jobNotFound, r)
  | some _, none => (.error .attemptNotFound, r)
  | some job, some attempt =>
    if !attemptShapeOk attempt then (.error .corruptAttemptRecord, r)
    else if job.latestAttemptId ≠ some argv.attemptId then (.error .attemptMismatch, r)
    else if job.status ≠ .active ∧ job.status ≠ .terminal then
      (.error (.invalidJobStatus job.status), r)
    else if !identityMatches attempt job argv then (.error .identityMismatch, r)
    else
      match reportInvariants rep with
      | .error e => (.error e, r)
      | .ok () =>
        if attempt.phase = .terminal then (reportReplay now rep attempt.report, r)
        else
          match reportTransition job attempt rep with
          | some e => (.error e, r)
          | none =>
            (.ok (.reported now),
              (r.setAttempt keys.attempt { attempt with
                phase := .terminal
                report := some { toExecutionReport := rep, receivedAtMs := now } }).setJob
                keys.job { job with status := .terminal })

/-! ### V2_CANCEL_JOB_SCRIPT -/

structure CancelKeys where
  job : String
  attempt : String
  targetQueue : String

structure CancelArgs where
  expectedAttemptId : String
  deviceId : String
  reason : String
  cancelReceiptSha256 : String

inductive CancelStatus where
  | cancelled | replayed | noChange
  deriving DecidableEq, Repr

inductive CancelResult where
  | cancelled | alreadyCancelled | alreadyTerminal
  deriving DecidableEq, Repr

structure JobCancelOutcome where
  status : CancelStatus
  result : CancelResult
  executionStatus : ExecutionStatus
  businessOutcome : BusinessOutcome
  attemptId : Option String
  serverTimeMs : Nat
  deriving DecidableEq, Repr

/-- The answer for a job that has already ended; nothing is written. -/
def cancelTerminal (now : Nat) (job : JobRecordV2) (stored : Option AttemptRecordV1) :
    Except ScriptError JobCancelOutcome :=
  match job.latestAttemptId with
  | some _ =>
    match stored with
    | none => .error .corruptAttemptRecord
    | some attempt =>
      match attempt.phase, attempt.report with
      | .terminal, some report =>
        if report.executionStatus = .cancelled then
          .ok ⟨.replayed, .alreadyCancelled, .cancelled, report.businessOutcome,
            some attempt.attemptId, now⟩
        else
          .ok ⟨.noChange, .alreadyTerminal, report.executionStatus, report.businessOutcome,
            some attempt.attemptId, now⟩
      | _, _ => .error .corruptAttemptRecord
  | none =>
    match job.cancel with
    | some _ => .ok ⟨.replayed, .alreadyCancelled, .cancelled, .notStarted, none, now⟩
    | none => .error .corruptJobRecord

/-- The report that ends a claimed or running attempt when its operator cancels it. -/
def cancelReport (now : Nat) (attempt : AttemptRecordV1) (receipt : String) :
    PersistedExecutionReport :=
  let taskDispatched := attempt.phase == .running
  { schemaVersion := 2
    executionStatus := .cancelled
    businessOutcome := if taskDispatched then .unverified else .notStarted
    taskDispatched := taskDispatched
    finishedAtMs := now
    durationMs := if taskDispatched then now - attempt.startedAtMs.getD 0 else 0
    executor := ⟨"operator", "1.0.0"⟩
    receiptSha256 := receipt
    error := some ⟨"orchestration", "OPERATOR_CANCELLED",
      "Job cancelled by operator before completion."⟩
    receivedAtMs := now }

def v2CancelJobScript (now : Nat) (keys : CancelKeys) (argv : CancelArgs) (r : Redis) :
    Except ScriptError JobCancelOutcome × Redis :=
  match r.jobs keys.job with
  | none => (.error .jobNotFound, r)
  | some job =>
    if job.status = .terminal then (cancelTerminal now job (r.attempts keys.attempt), r)
    else if job.status = .preparing then (.error (.invalidJobStatus .preparing), r)
    else if job.latestAttemptId.getD "" ≠ argv.expectedAttemptId then (.error .cancelRace, r)
    else
      let cancelRecord : JobCancelRecordV2 := ⟨now, argv.deviceId, argv.reason⟩
      let ended := { job with status := .terminal, cancel := some cancelRecord }
      if job.status = .active then
        match r.attempts keys.attempt with
        | none => (.error .corruptAttemptRecord, r)
        | some attempt =>
          if attempt.jobId ≠ job.jobId ∨ some attempt.attemptId ≠ job.latestAttemptId then
            (.error .corruptAttemptRecord, r)
          else if attempt.phase ≠ .claimed ∧ attempt.phase ≠ .running then
            (.error (.invalidAttemptPhase attempt.phase), r)
          else if attempt.phase = .running ∧ attempt.startedAtMs = none then
            (.error .corruptAttemptRecord, r)
          else
            let report := cancelReport now attempt argv.cancelReceiptSha256
            (.ok ⟨.cancelled, .cancelled, .cancelled, report.businessOutcome,
                some attempt.attemptId, now⟩,
              (r.setAttempt keys.attempt
                { attempt with phase := .terminal, report := some report }).setJob keys.job ended)
      else
        -- queued, expired-unclaimed included
        (.ok ⟨.cancelled, .cancelled, .cancelled, .notStarted, none, now⟩,
          (r.zremTargetQueue keys.targetQueue job.jobId).setJob keys.job ended)

/-! ### V2_RECORD_RESULT_SCRIPT -/

inductive DeliveryMode where
  | automatic | explicitRedelivery
  deriving DecidableEq, Repr

inductive RecordReply where
  | recorded (serverTimeMs : Nat) (commit resourceId : String)
  | replayed (serverTimeMs : Nat) (commit resourceId : String)
  deriving DecidableEq, Repr

/-- The stored result is the incoming one, as far as the script compares them. -/
def sameResult (existing incoming : PersistedJobResult) : Bool :=
  existing.payloadSha256 == incoming.payloadSha256 &&
  existing.resourceId == incoming.resourceId && existing.target == incoming.target

def v2RecordResultScript (now : Nat) (keys : AttemptKeys) (argv : AttemptArgs)
    (incoming : PersistedJobResult) (mode : DeliveryMode) (r : Redis) :
    Except ScriptError RecordReply × Redis :=
  match r.jobs keys.job, r.attempts keys.attempt with
  | none, _ => (.error .jobNotFound, r)
  | some _, none => (.error .attemptNotFound, r)
  | some job, some attempt =>
    if attempt.jobId ≠ job.jobId ∨ job.latestAttemptId ≠ some attempt.attemptId then
      (.error .attemptMismatch, r)
    else if attempt.deviceId ≠ argv.deviceId ∨ attempt.claimTokenSha256 ≠ argv.claimTokenSha256 then
      (.error .identityMismatch, r)
    else
      let record : Except ScriptError RecordReply × Redis :=
        (.ok (.recorded now incoming.commit incoming.resourceId),
          r.setAttempt keys.attempt
            { attempt with result := some { incoming with receivedAtMs := now } })
      match attempt.result with
      | none => record
      | some existing =>
        if sameResult existing incoming then
          (.ok (.replayed now existing.commit existing.resourceId), r)
        else if mode ≠ .explicitRedelivery then (.error .staleResultSubmission, r)
        else record

end Ceo.Jobs
