import Ceo.Jobs.Script

/-!
# The job store

`RedisJobStoreV2` (`jobs/v2-store.ts`): each method builds the KEYS and ARGV
of one script, runs it, and turns its error code into the error it throws.
`Call` lists the calls that can reach Redis, and `exec` runs one.
-/

namespace Ceo.Jobs

open Ceo.Lib Function

/-- The `reasonCode` of a `V2StoreError`. -/
inductive ReasonCode where
  | corruptJobState
  | corruptAttemptLinkage
  | corruptJobIndex
  | corruptTargetState
  | cancelRaceExhausted
  | script (code : ScriptError)
  deriving DecidableEq, Repr

inductive V2Error where
  | schema (message : String)
  | store (reason : ReasonCode)
  | jobNotFound
  | alreadyClaimed
  | expired
  | finished
  | idempotencyConflict (message : String)
  | lifecycle (code : ScriptError)
  | reportConflict (message : String)
  | cancelRace
  | targetDeleteFenced (targetId : String)
  | validation (message : String)
  | workspaceAccessDenied (message : String)
  | targetNotFound
  | invalidTimeValue
  deriving DecidableEq, Repr

/-- The error carries a `CORRUPT_…` code. -/
def V2Error.isCorrupt : V2Error → Bool
  | .store .corruptJobState | .store .corruptAttemptLinkage | .store .corruptJobIndex
  | .store .corruptTargetState | .store (.script .corruptAttemptRecord)
  | .store (.script .corruptJobRecord) | .lifecycle .corruptAttemptRecord
  | .lifecycle .corruptJobRecord => true
  | _ => false

/-- The error is a stored record its reader cannot take: its parser throws, or
a time in it is none `Date` can show. -/
def V2Error.isUnreadable : V2Error → Bool
  | .schema _ | .invalidTimeValue => true
  | _ => false

def schemaError {α : Type} : Except String α → Except V2Error α
  | .ok a => .ok a
  | .error m => .error (.schema m)

/-! ### reads -/

def getJob (r : Redis) (jobId : String) : Except V2Error (Option JobRecordV2) :=
  match r.jobs jobId with
  | none => .ok none
  | some raw => (schemaError (parseJobRecordV2 raw)).map some

def getAttempt (r : Redis) (attemptId : String) : Except V2Error (Option AttemptRecordV1) :=
  match r.attempts attemptId with
  | none => .ok none
  | some raw => (schemaError (parseAttemptRecordV1 raw)).map some

def requestKeyV2 (userId workspaceId requestId : String) : String :=
  "ceo:request:v2:" ++ userId ++ ":" ++ workspaceId ++ ":" ++ requestId

/-! ### createJob -/

/-- `createJob` up to the reply of its script; a record that does not parse is never sent. -/
def createJob (now : Nat) (job : JobRecordV2) (requestId : String) (r : Redis) :
    Except V2Error CreateReply × Redis :=
  match serializeJobRecordV2 job with
  | .error m => (.error (.schema m), r)
  | .ok record =>
    let (reply, r') := v2CreateJobScript now
      { request := requestKeyV2 job.userId job.workspaceId requestId
        job := job.jobId
        targetQueue := job.targetId
        deleteFence := job.targetId }
      { jobId := job.jobId
        userId := job.userId
        workspaceId := job.workspaceId
        targetId := job.targetId
        createdAtMs := job.createdAtMs
        record := record } r
    match reply with
    | .ok reply => (.ok reply, r')
    | .error (.targetDeleteFenced t) => (.error (.targetDeleteFenced t), r')
    | .error e => (.error (.store (.script e)), r')

/-! ### claimJob -/

structure ClaimParams where
  jobId : String
  expectedWorkspaceId : String
  expectedTargetId : String
  deviceId : String
  targetBindingId : String
  attemptId : String
  claimTokenSha256 : String
  isReplayOnly : Bool

def claimError : ScriptError → V2Error
  | .jobNotFound | .notOwnerReplay => .jobNotFound
  | .targetDeleteFenced t => .targetDeleteFenced t
  | .jobAlreadyClaimed => .alreadyClaimed
  | .jobExpired => .expired
  | .jobFinished => .finished
  | .idempotencyConflict =>
    .idempotencyConflict "Claim token or identity mismatch on attempt replay."
  | .attemptIdCollision => .idempotencyConflict "Attempt ID collision detected."
  | e => .store (.script e)

def claimScript (now : Nat) (p : ClaimParams) (r : Redis) : Except ScriptError ClaimReply × Redis :=
  v2ClaimJobScript now
    { job := p.jobId
      targetQueue := p.expectedTargetId
      jobAttempts := p.jobId
      attempt := p.attemptId
      deleteFence := p.expectedTargetId }
    { jobId := p.jobId
      workspaceId := p.expectedWorkspaceId
      targetId := p.expectedTargetId
      deviceId := p.deviceId
      targetBindingId := p.targetBindingId
      attemptId := p.attemptId
      claimTokenSha256 := p.claimTokenSha256
      isReplayOnly := p.isReplayOnly } r

def parsedClaim : ClaimReply → Except V2Error ClaimReply
  | .claimed a t => (schemaError (parseAttemptRecordV1 a)).map (.claimed · t)
  | .replayed a t => (schemaError (parseAttemptRecordV1 a)).map (.replayed · t)

def claimJob (now : Nat) (p : ClaimParams) (r : Redis) : Except V2Error ClaimReply × Redis :=
  match claimScript now p r with
  | (.ok reply, r') => (parsedClaim reply, r')
  | (.error e, r') => (.error (claimError e), r')

/-! ### startJob, reportJob, recordJobResult -/

structure AttemptParams where
  jobId : String
  attemptId : String
  deviceId : String
  claimTokenSha256 : String

def AttemptParams.keys (p : AttemptParams) : AttemptKeys := ⟨p.jobId, p.attemptId⟩

def AttemptParams.argv (p : AttemptParams) : AttemptArgs :=
  ⟨p.attemptId, p.deviceId, p.claimTokenSha256⟩

def startError : ScriptError → V2Error
  | .jobNotFound => .jobNotFound
  | .attemptNotFound => .lifecycle .attemptNotFound
  | .jobNotActive => .lifecycle .jobNotActive
  | .identityMismatch => .lifecycle .identityMismatch
  | .corruptAttemptRecord => .lifecycle .corruptAttemptRecord
  | .invalidAttemptPhase p => .lifecycle (.invalidAttemptPhase p)
  | e => .store (.script e)

def parsedStart : StartReply → Except V2Error StartReply
  | .started a t => (schemaError (parseAttemptRecordV1 a)).map (.started · t)
  | .replayed a t => (schemaError (parseAttemptRecordV1 a)).map (.replayed · t)

def startJob (now : Nat) (p : AttemptParams) (r : Redis) : Except V2Error StartReply × Redis :=
  match v2StartJobScript now p.keys p.argv r with
  | (.ok reply, r') => (parsedStart reply, r')
  | (.error e, r') => (.error (startError e), r')

def reportError : ScriptError → V2Error
  | .jobNotFound => .jobNotFound
  | .reportConflict => .reportConflict "Terminal report does not match previously recorded report."
  | .unverifiedOutcomeRequiresDispatched => .store (.script .unverifiedOutcomeRequiresDispatched)
  | e => .lifecycle e

def reportJob (now : Nat) (p : AttemptParams) (report : ExecutionReport) (r : Redis) :
    Except V2Error ReportReply × Redis :=
  match v2ReportJobScript now p.keys p.argv report r with
  | (.ok reply, r') => (.ok reply, r')
  | (.error e, r') => (.error (reportError e), r')

def recordError : ScriptError → V2Error
  | .jobNotFound => .jobNotFound
  | .staleResultSubmission => .reportConflict "STALE_RESULT_SUBMISSION"
  | e => .lifecycle e

def recordJobResult (now : Nat) (p : AttemptParams) (result : PersistedJobResult)
    (mode : DeliveryMode) (r : Redis) : Except V2Error RecordReply × Redis :=
  match v2RecordResultScript now p.keys p.argv result mode r with
  | (.ok reply, r') => (.ok reply, r')
  | (.error e, r') => (.error (recordError e), r')

/-! ### cancelJob -/

structure CancelParams where
  jobId : String
  expectedAttemptId : Option String
  expectedTargetId : String
  deviceId : String
  reason : String
  cancelReceiptSha256 : String

def cancelError : ScriptError → V2Error
  | .jobNotFound => .jobNotFound
  | .cancelRace => .cancelRace
  | e => .store (.script e)

/-- The attempt key of the script: `none` stands in for an attempt the job does not have. -/
def cancelAttemptKey (expectedAttemptId : Option String) : String :=
  if expectedAttemptId.getD "" = "" then "none" else expectedAttemptId.getD ""

def cancelScript (now : Nat) (p : CancelParams) (r : Redis) :
    Except ScriptError JobCancelOutcome × Redis :=
  v2CancelJobScript now
    { job := p.jobId
      attempt := cancelAttemptKey p.expectedAttemptId
      targetQueue := p.expectedTargetId }
    { expectedAttemptId := p.expectedAttemptId.getD ""
      deviceId := p.deviceId
      reason := p.reason
      cancelReceiptSha256 := p.cancelReceiptSha256 } r

def cancelJob (now : Nat) (p : CancelParams) (r : Redis) : Except V2Error JobCancelOutcome × Redis :=
  match cancelScript now p r with
  | (.ok outcome, r') => (.ok outcome, r')
  | (.error e, r') => (.error (cancelError e), r')

/-! ### calls -/

/-- The store calls; the last two are the delete coordinator's and the
pollers' writes, which touch no job and no attempt. -/
inductive Call where
  | create (job : JobRecordV2) (requestId : String)
  | claim (p : ClaimParams)
  | start (p : AttemptParams)
  | report (p : AttemptParams) (report : ExecutionReport)
  | cancel (p : CancelParams)
  | recordResult (p : AttemptParams) (result : PersistedJobResult) (mode : DeliveryMode)
  | setFence (targetId : String) (fence : Option DeleteFence)
  | pruneTargetQueue (targetId jobId : String)

def exec (now : Nat) (r : Redis) : Call → Redis
  | .create job requestId => (createJob now job requestId r).2
  | .claim p => (claimJob now p r).2
  | .start p => (startJob now p r).2
  | .report p report => (reportJob now p report r).2
  | .cancel p => (cancelJob now p r).2
  | .recordResult p result mode => (recordJobResult now p result mode r).2
  | .setFence targetId fence => { r with fences := update r.fences targetId fence }
  | .pruneTargetQueue targetId jobId => r.zremTargetQueue targetId jobId

end Ceo.Jobs
