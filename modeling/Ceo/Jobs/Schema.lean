import Ceo.Jobs.Contract

/-!
# Stored records

The job and attempt records of `jobs/v2-schema.ts` and the two parsers every
reader goes through. The fields are typed here, so the parsers' checks of
JavaScript types and of unknown keys have nothing left to reject; every other
check is a guard with the source's message, in the source's order.
-/

namespace Ceo.Jobs

open Ceo.Lib

def jobsV2SchemaVersion : Nat := 6
def attemptV1SchemaVersion : Nat := 1
def streamV2SchemaVersion : Nat := 2

def minTimeoutSeconds : Nat := 60
def maxTimeoutSeconds : Nat := 7200
def maxPromptBytes : Nat := 64 * 1024
def maxAcceptanceBytes : Nat := 8 * 1024
def jobClaimTtlMsV2 : Nat := 7 * 24 * 60 * 60 * 1000
def targetDeleteFenceTtlMs : Nat := 60000

/-! ### id formats -/

def lowerUuid : Pattern := Pattern.uuid Pattern.hex

def jobIdV2Re : String → Bool := Pattern.test (Pattern.lit "job-" ++ lowerUuid)
def requestIdV2Re (s : String) : Bool :=
  Pattern.test lowerUuid s || Pattern.test (Pattern.lit "req-" ++ lowerUuid) s
def targetIdV2Re : String → Bool := Pattern.test (Pattern.lit "tgt_" ++ lowerUuid)
def deviceIdV2Re : String → Bool := Pattern.test (Pattern.lit "dev_" ++ lowerUuid)
def targetBindingIdV2Re : String → Bool := Pattern.test (Pattern.lit "dtb_" ++ lowerUuid)

def digits1 (cs : List Char) : Bool := !cs.isEmpty && cs.all Pattern.digit

/-- `/^\d+-\d+$/` on the characters of a string. -/
def streamEntryIdChars : List Char → Bool
  | [] => false
  | c :: cs => Pattern.digit c && (streamEntryIdChars cs || (cs.head? == some '-' && digits1 cs.tail))

def streamEntryIdRe (s : String) : Bool := streamEntryIdChars s.toList

/-! ### records -/

inductive JobStatus where
  | preparing | queued | active | terminal
  deriving DecidableEq, Repr

inductive AttemptPhase where
  | claimed | running | terminal
  deriving DecidableEq, Repr

/-- Who cancelled a job from the operator side, when and why. -/
structure JobCancelRecordV2 where
  cancelledAtMs : Nat
  requestedByDeviceId : String
  reason : String
  deriving DecidableEq, Repr

structure JobRecordV2 where
  schemaVersion : Nat
  jobId : String
  requestId : String
  userId : String
  workspaceId : String
  targetId : String
  prompt : String
  acceptance : String
  resourceId : Option String
  executionTimeoutSeconds : Nat
  resultTarget : ResultTarget
  requestDigest : String
  status : JobStatus
  streamEntryId : Option String
  latestAttemptId : Option String
  createdAtMs : Nat
  claimDeadlineMs : Nat
  cancel : Option JobCancelRecordV2
  deriving DecidableEq, Repr

structure AttemptRecordV1 where
  schemaVersion : Nat
  attemptId : String
  jobId : String
  userId : String
  workspaceId : String
  targetId : String
  deviceId : String
  targetBindingId : String
  claimTokenSha256 : String
  phase : AttemptPhase
  claimedAtMs : Nat
  startedAtMs : Option Nat
  report : Option PersistedExecutionReport
  result : Option PersistedJobResult
  deriving DecidableEq, Repr

structure JobStreamEntryV2 where
  schemaVersion : Nat
  jobId : String
  userId : String
  workspaceId : String
  targetId : String
  createdAtMs : Nat
  deriving DecidableEq, Repr

/-! ### parseJobRecordV2 -/

def tenantIdOk (s : String) : Bool := !isWhitespaceOnly s && jsLength s ≤ 128

def optAll {α : Type} (p : α → Bool) : Option α → Bool
  | none => true
  | some a => p a

/-- The checks on the business fields and timestamps, which no script changes. -/
def jobFieldGuards (rec : JobRecordV2) : List Guard :=
  [⟨rec.schemaVersion == jobsV2SchemaVersion,
    "Unsupported schema_version '" ++ toString rec.schemaVersion ++ "'; expected 6."⟩,
   ⟨jobIdV2Re rec.jobId, "Invalid job record: 'job_id' must be formatted as job-<uuid>."⟩,
   ⟨requestIdV2Re rec.requestId,
    "Invalid job record: 'request_id' must be a valid UUID or req-<uuid>."⟩,
   ⟨tenantIdOk rec.userId, "Invalid job record: 'user_id' must be a non-empty string."⟩,
   ⟨tenantIdOk rec.workspaceId, "Invalid job record: 'workspace_id' must be a non-empty string."⟩,
   ⟨targetIdV2Re rec.targetId, "Invalid job record: 'target_id' must be formatted as tgt_<uuid>."⟩,
   ⟨!isWhitespaceOnly rec.prompt,
    "Invalid job record: 'prompt' must be non-empty and not whitespace-only."⟩,
   ⟨utf8ByteLength rec.prompt ≤ maxPromptBytes,
    "Invalid job record: 'prompt' exceeds maximum byte limit of 65536 bytes."⟩,
   ⟨!isWhitespaceOnly rec.acceptance,
    "Invalid job record: 'acceptance' must be non-empty and not whitespace-only."⟩,
   ⟨utf8ByteLength rec.acceptance ≤ maxAcceptanceBytes,
    "Invalid job record: 'acceptance' exceeds maximum byte limit of 8192 bytes."⟩,
   ⟨rec.resultTarget != .resource || (rec.resourceId.isSome && optAll resourceIdV2Re rec.resourceId),
    "Invalid job record: 'resource_id' (res-<uuid>) is required when result_target is 'resource'."⟩,
   ⟨rec.resultTarget == .resource || optAll resourceIdV2Re rec.resourceId,
    "Invalid job record: 'resource_id' must be null or a valid res-<uuid> when result_target is 'none'."⟩,
   ⟨minTimeoutSeconds ≤ rec.executionTimeoutSeconds &&
      rec.executionTimeoutSeconds ≤ maxTimeoutSeconds,
    "Invalid job record: 'execution_timeout_seconds' must be an integer between 60 and 7200."⟩,
   ⟨hex64Re rec.requestDigest,
    "Invalid job record: 'request_digest' must be exactly 64 lowercase hex characters."⟩,
   ⟨rec.createdAtMs ≤ maxSafeInteger,
    "Invalid job record: 'created_at_ms' must be a non-negative safe integer."⟩,
   ⟨rec.createdAtMs < rec.claimDeadlineMs && rec.claimDeadlineMs ≤ maxSafeInteger,
    "Invalid job record: 'claim_deadline_ms' must be a safe integer greater than created_at_ms."⟩]

/-- The checks on the lifecycle fields, which the scripts write. -/
def jobStateGuards (rec : JobRecordV2) : List Guard :=
  [⟨optAll streamEntryIdRe rec.streamEntryId,
    "Invalid job record: 'stream_entry_id' must be null or a valid Redis stream entry ID (<ms>-<seq>)."⟩,
   ⟨optAll attemptIdV2Re rec.latestAttemptId,
    "Invalid job record: 'latest_attempt_id' must be null or a valid attempt ID."⟩] ++
  (match rec.status with
   | .preparing =>
     [⟨rec.streamEntryId.isNone && rec.latestAttemptId.isNone,
       "Job in 'preparing' state must have stream_entry_id=null and latest_attempt_id=null."⟩]
   | .queued =>
     [⟨rec.streamEntryId.isSome, "Job in 'queued' state must have non-null stream_entry_id."⟩,
      ⟨rec.latestAttemptId.isNone, "Job in 'queued' state cannot have latest_attempt_id set."⟩]
   | .active =>
     [⟨rec.streamEntryId.isSome, "Job in 'active' state must have non-null stream_entry_id."⟩,
      ⟨rec.latestAttemptId.isSome, "Job in 'active' state must have non-null latest_attempt_id."⟩]
   | .terminal =>
     [⟨rec.streamEntryId.isSome, "Job in 'terminal' state must have non-null stream_entry_id."⟩,
      ⟨rec.latestAttemptId.isSome || rec.cancel.isSome,
       "Job in 'terminal' state must have non-null latest_attempt_id or an operator cancel record."⟩])

def jobCancelGuards (c : JobCancelRecordV2) : List Guard :=
  [⟨c.cancelledAtMs ≤ maxSafeInteger,
    "Invalid job record: 'cancel.cancelled_at_ms' must be a non-negative safe integer."⟩,
   ⟨deviceIdV2Re c.requestedByDeviceId,
    "Invalid job record: 'cancel.requested_by_device_id' must be formatted as dev_<uuid>."⟩,
   ⟨1 ≤ jsLength c.reason && jsLength c.reason ≤ 256,
    "Invalid job record: 'cancel.reason' must be a non-empty string of at most 256 characters."⟩]

def jobRecordGuards (rec : JobRecordV2) : List Guard :=
  jobFieldGuards rec ++ jobStateGuards rec ++
    (match rec.cancel with
     | none => []
     | some c => jobCancelGuards c)

def parseJobRecordV2 (rec : JobRecordV2) : Except String JobRecordV2 := do
  Guard.run (jobRecordGuards rec)
  return rec

/-- What `JSON.stringify` is given: the record, once it parses. -/
def serializeJobRecordV2 (job : JobRecordV2) : Except String JobRecordV2 := parseJobRecordV2 job

/-! ### parseAttemptRecordV1 -/

def attemptFieldGuards (rec : AttemptRecordV1) : List Guard :=
  [⟨rec.schemaVersion == attemptV1SchemaVersion,
    "Unsupported attempt schema_version '" ++ toString rec.schemaVersion ++ "'; expected 1."⟩,
   ⟨attemptIdV2Re rec.attemptId,
    "Invalid attempt record: 'attempt_id' must be a valid attempt ID (att_<uuid> or UUID)."⟩,
   ⟨jobIdV2Re rec.jobId, "Invalid attempt record: 'job_id' must be formatted as job-<uuid>."⟩,
   ⟨tenantIdOk rec.userId, "Invalid attempt record: 'user_id' must be a non-empty string."⟩,
   ⟨tenantIdOk rec.workspaceId, "Invalid attempt record: 'workspace_id' must be a non-empty string."⟩,
   ⟨targetIdV2Re rec.targetId, "Invalid attempt record: 'target_id' must be formatted as tgt_<uuid>."⟩,
   ⟨deviceIdV2Re rec.deviceId, "Invalid attempt record: 'device_id' must be formatted as dev_<uuid>."⟩,
   ⟨targetBindingIdV2Re rec.targetBindingId,
    "Invalid attempt record: 'target_binding_id' must be formatted as dtb_<uuid>."⟩,
   ⟨hex64Re rec.claimTokenSha256,
    "Invalid attempt record: 'claim_token_sha256' must be exactly 64 lowercase hex characters."⟩,
   ⟨rec.claimedAtMs ≤ maxSafeInteger,
    "Invalid attempt record: 'claimed_at_ms' must be a non-negative safe integer."⟩]

/-- A start time that is there, safe, and not before the claim. -/
def startedOk (rec : AttemptRecordV1) : Bool :=
  match rec.startedAtMs with
  | none => false
  | some t => rec.claimedAtMs ≤ t && t ≤ maxSafeInteger

def attemptResultGuards (rec : AttemptRecordV1) : List Guard :=
  match rec.result with
  | none => []
  | some result =>
    Guard.wrap "Invalid attempt result: Invalid job result: " (persistedJobResultSchema result) ++
    [⟨result.attemptId == rec.attemptId,
      "Result attempt_id '" ++ result.attemptId ++ "' does not match attempt record attempt_id '" ++
        rec.attemptId ++ "'."⟩]

def attemptStateGuards (rec : AttemptRecordV1) : List Guard :=
  match rec.phase with
  | .claimed =>
    [⟨rec.startedAtMs.isNone, "Attempt in 'claimed' phase must have started_at_ms = null."⟩,
     ⟨rec.report.isNone, "Attempt in 'claimed' phase cannot have a report."⟩,
     ⟨rec.result.isNone, "Attempt in 'claimed' phase cannot have a result."⟩]
  | .running =>
    [⟨startedOk rec, "Attempt in 'running' phase must have started_at_ms >= claimed_at_ms."⟩,
     ⟨rec.report.isNone, "Attempt in 'running' phase cannot have a report."⟩] ++
    attemptResultGuards rec
  | .terminal =>
    match rec.report with
    | none => [⟨false, "Attempt in 'terminal' phase requires a valid execution report."⟩]
    | some report =>
      Guard.wrap "Invalid attempt report: Invalid execution report: "
        (persistedExecutionReportSchema report) ++
      (if report.taskDispatched then
        [⟨startedOk rec, "Dispatched terminal attempt requires started_at_ms >= claimed_at_ms."⟩] ++
        attemptResultGuards rec
      else
        [⟨rec.startedAtMs.isNone || startedOk rec,
          "Undispatched terminal attempt with started_at_ms requires started_at_ms >= claimed_at_ms."⟩,
         ⟨rec.result.isNone, "Undispatched terminal attempt cannot have a result."⟩])

def attemptRecordGuards (rec : AttemptRecordV1) : List Guard :=
  attemptFieldGuards rec ++ attemptStateGuards rec

def parseAttemptRecordV1 (rec : AttemptRecordV1) : Except String AttemptRecordV1 := do
  Guard.run (attemptRecordGuards rec)
  return rec

/-! ### acceptance -/

def JobRecordV2.Accepted (rec : JobRecordV2) : Prop := Guard.All (jobRecordGuards rec)

def AttemptRecordV1.Accepted (rec : AttemptRecordV1) : Prop := Guard.All (attemptRecordGuards rec)

theorem run_then_ok_iff {α : Type} (gs : List Guard) (a : α) :
    (do Guard.run gs; return a) = (Except.ok a : Except String α) ↔ Guard.All gs := by
  rw [← Guard.run_ok_iff]
  cases h : Guard.run gs <;> simp [bind, Except.bind, pure, Except.pure]

theorem parseJobRecordV2_ok_iff (rec : JobRecordV2) :
    parseJobRecordV2 rec = .ok rec ↔ rec.Accepted := run_then_ok_iff _ _

theorem parseAttemptRecordV1_ok_iff (rec : AttemptRecordV1) :
    parseAttemptRecordV1 rec = .ok rec ↔ rec.Accepted := run_then_ok_iff _ _

theorem run_then_cases {α : Type} (gs : List Guard) (a : α) :
    (do Guard.run gs; return a) = (Except.ok a : Except String α) ∧ Guard.All gs ∨
      ∃ m, (do Guard.run gs; return a) = (Except.error m : Except String α) ∧ ¬Guard.All gs := by
  rw [← Guard.run_ok_iff]
  cases h : Guard.run gs <;> simp [bind, Except.bind, pure, Except.pure]

theorem parseJobRecordV2_cases (rec : JobRecordV2) :
    parseJobRecordV2 rec = .ok rec ∧ rec.Accepted ∨
      ∃ m, parseJobRecordV2 rec = .error m ∧ ¬rec.Accepted := run_then_cases _ _

theorem parseAttemptRecordV1_cases (rec : AttemptRecordV1) :
    parseAttemptRecordV1 rec = .ok rec ∧ rec.Accepted ∨
      ∃ m, parseAttemptRecordV1 rec = .error m ∧ ¬rec.Accepted := run_then_cases _ _

/-- A parser returns the record it was given or throws. -/
theorem run_then_ok {α : Type} {gs : List Guard} {a b : α}
    (h : (do Guard.run gs; return a) = (Except.ok b : Except String α)) : b = a ∧ Guard.All gs := by
  rw [← Guard.run_ok_iff]
  cases hr : Guard.run gs <;> simp_all [bind, Except.bind, pure, Except.pure]

theorem parseJobRecordV2_ok {rec job : JobRecordV2} (h : parseJobRecordV2 rec = .ok job) :
    job = rec ∧ rec.Accepted := run_then_ok h

end Ceo.Jobs
