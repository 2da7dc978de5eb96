import Ceo.Jobs.Coordinator

/-!
# Submitting a job

`submit` of `JobCoordinatorV2` with `checkExistingSubmission`
(`jobs/v2-service.ts`) and what `createJob` does after its script
(`jobs/v2-store.ts`), command by command: the lookup of the request, the script
and the reads after it are apart, and other calls may come between them.
-/

namespace Ceo.Jobs

open Ceo.Lib

inductive SubmitError where
  | v2 (e : V2Error)
  | validation (message : String)
  | targetNotFound
  | targetDisabled
  | userInactive
  | membership
  | resourceNotFound (resourceId : String)
  /-- `QUEUE_UNAVAILABLE`, by its reason code. -/
  | unavailable (reasonCode message : String)
  deriving DecidableEq, Repr

inductive SubmitStatus where
  | created | replayed
  deriving DecidableEq, Repr

inductive SubmitAsk where
  /-- What the identity and the control store hold now. -/
  | control
  | resourceExists (scope : Scope) (resourceId : String)
  | randomUuid
  | nowMs
  | getRequestJobId (userId workspaceId requestId : String)
  | getJob (jobId : String)
  /-- `V2_CREATE_JOB_SCRIPT`, up to its reply. -/
  | createJob (job : JobRecordV2) (requestId : String)

def SubmitAsk.Answer : SubmitAsk → Type
  | .control => Control
  | .resourceExists _ _ => Bool
  | .randomUuid => String
  | .nowMs => Nat
  | .getRequestJobId _ _ _ => Option String
  | .getJob _ => Except V2Error (Option JobRecordV2)
  | .createJob _ _ => Except V2Error CreateReply

abbrev Submission := Program SubmitAsk SubmitAsk.Answer (Except SubmitError (SubmitStatus × JobRecordV2))

/-- The canonical JSON of these under SHA-256. -/
abbrev BusinessDigest := String → String → String → Option String → Nat → ResultTarget → String

def businessDigestV2 (h : BusinessDigest) (input : SubmitJobInput) : String :=
  h input.targetId input.prompt input.acceptance input.resourceId input.executionTimeoutSeconds
    input.resultTarget

/-- What `checkExistingSubmission` asks of the input. -/
def submitGuards (input : SubmitJobInput) : List Guard :=
  [⟨requestIdV2Re input.requestId, "Invalid request_id format: must be a canonical UUID (e.g. " ++
      "'550e8400-e29b-41d4-a716-446655440000') or prefixed with 'req-'."⟩,
   ⟨targetIdV2Re input.targetId, "Invalid target_id format."⟩,
   ⟨!isWhitespaceOnly input.prompt, "Prompt must not be empty or whitespace-only."⟩,
   ⟨utf8ByteLength input.prompt ≤ maxPromptBytes, "Prompt exceeds maximum byte limit of 65536 bytes."⟩,
   ⟨!isWhitespaceOnly input.acceptance, "Acceptance must not be empty or whitespace-only."⟩,
   ⟨utf8ByteLength input.acceptance ≤ maxAcceptanceBytes,
    "Acceptance exceeds maximum byte limit of 8192 bytes."⟩,
   ⟨minTimeoutSeconds ≤ input.executionTimeoutSeconds &&
      input.executionTimeoutSeconds ≤ maxTimeoutSeconds,
    "execution_timeout_seconds must be an integer between 60 and 7200."⟩,
   ⟨input.resultTarget != .resource || input.resourceId.any resourceIdV2Re,
    "resource_id is required when result_target is 'resource'."⟩,
   ⟨input.resultTarget == .resource || input.resourceId.all resourceIdV2Re,
    "resource_id must be null or valid res-<uuid>."⟩]

/-- The checks for a job that is new. -/
def authorize (control : Control) (scope : Scope) (input : SubmitJobInput) : Except SubmitError Unit :=
  match control.getExecutionTarget input.targetId with
  | none => .error .targetNotFound
  | some target =>
    if target.workspaceId ≠ scope.workspaceId then .error .targetNotFound
    else if target.disabledAtMs.isSome then .error .targetDisabled
    else if !control.isUserActive scope.userId then .error .userInactive
    else if !control.isMember scope.workspaceId scope.userId then .error .membership
    else .ok ()

namespace JobCoordinatorV2

def refuse (e : SubmitError) : Submission := .done (.error e)

def missingJob : SubmitError :=
  .unavailable "CORRUPT_SUBMISSION_REFERENCE" "Request placeholder references a missing Job."

/-- The job found under the request is the one that is submitted; `differs` says that it is not. -/
def matchExisting (scope : Scope) (input : SubmitJobInput) (digest differs : String)
    (job : JobRecordV2) : Except SubmitError Unit :=
  if job.userId ≠ scope.userId ∨ job.workspaceId ≠ scope.workspaceId ∨
      job.requestId ≠ input.requestId then
    .error (.v2 (.idempotencyConflict "Existing job identity mismatch."))
  else if job.status = .preparing then
    .error (.unavailable "INCOMPLETE_SUBMISSION"
      "Previous submission with this request ID was incomplete.")
  else if job.requestDigest ≠ digest then .error (.v2 (.idempotencyConflict differs))
  else .ok ()

def retrieve (status : SubmitStatus) (jobId : String) : Submission :=
  .call (.getJob jobId) fun
  | .error e => refuse (.v2 e)
  | .ok none =>
    refuse (.unavailable "JOB_RETRIEVAL_FAILED" "Failed to retrieve job after creation.")
  | .ok (some job) => .done (.ok (status, job))

/-- The script has found the request already there. -/
def existingRequest (scope : Scope) (input : SubmitJobInput) (digest jobId : String) : Submission :=
  .call (.getJob jobId) fun
  | .error (.schema m) =>
    refuse (.unavailable "MALFORMED_JOB_RECORD" ("Existing job record is malformed: " ++ m))
  | .error e => refuse (.v2 e)
  | .ok none => refuse missingJob
  | .ok (some job) =>
    match matchExisting scope input digest
        "A job with this request ID already exists with different parameters." job with
    | .error e => refuse e
    | .ok () => retrieve .replayed job.jobId

def createSubmission (scope : Scope) (input : SubmitJobInput) (digest : String) : Submission :=
  .call .randomUuid fun jobId =>
  .call .nowMs fun now =>
  .call (.createJob (submitRecord scope input jobId digest now) input.requestId) fun
  | .error e => refuse (.v2 e)
  | .ok (.created jobId _) => retrieve .created jobId
  | .ok (.existingRequest jobId) => existingRequest scope input digest jobId

def authorizeSubmission (scope : Scope) (input : SubmitJobInput) (digest : String) : Submission :=
  .call .control fun control =>
  match authorize control scope input with
  | .error e => refuse e
  | .ok () =>
    match input.resourceId.filter (· ≠ "") with
    | none => createSubmission scope input digest
    | some resourceId =>
      .call (.resourceExists scope resourceId) fun
      | true => createSubmission scope input digest
      | false => refuse (.resourceNotFound resourceId)

def submit (h : BusinessDigest) (scope : Scope) (input : SubmitJobInput) : Submission :=
  .call .control fun control =>
  match assertHostWorkspaceAccess control scope with
  | .error e => refuse (.v2 e)
  | .ok () =>
    match Guard.run (submitGuards input) with
    | .error m => refuse (.validation m)
    | .ok () =>
      .call (.getRequestJobId scope.userId scope.workspaceId input.requestId) fun existing =>
      match existing.filter (· ≠ "") with
      | none => authorizeSubmission scope input (businessDigestV2 h input)
      | some jobId =>
        .call (.getJob jobId) fun
        | .error e => refuse (.v2 e)
        | .ok none => refuse missingJob
        | .ok (some job) =>
          match matchExisting scope input (businessDigestV2 h input)
              "Request digest mismatch with existing job." job with
          | .error e => refuse e
          | .ok () => .done (.ok (.replayed, job))

end JobCoordinatorV2

/-! ### the server -/

/-- What is chosen outside a submission. -/
inductive SubmitChoice where
  | control (c : Control)
  | found (b : Bool)
  | jobId (id : String)
  | date (ms : Nat)
  | redisTime (now : Nat)

def serveSubmit (r : Redis) : (e : SubmitAsk) → SubmitChoice → Option (e.Answer × Redis)
  | .control, .control c => some (c, r)
  | .resourceExists _ _, .found b => some (b, r)
  | .randomUuid, .jobId id => some (id, r)
  | .nowMs, .date ms => some (ms, r)
  | .getRequestJobId userId workspaceId requestId, .redisTime _ =>
    some (r.requests (requestKeyV2 userId workspaceId requestId), r)
  | .getJob jobId, .redisTime _ => some (getJob r jobId, r)
  | .createJob job requestId, .redisTime now => some (createJob now job requestId r)
  | _, _ => none

abbrev SubmissionRequest := Scope × SubmitJobInput

/-- Any number of submissions over one Redis, among store calls that others make. -/
def submissions (h : BusinessDigest) : Server Redis SubmitAsk SubmitAsk.Answer SubmitChoice
    (Nat × Call) SubmissionRequest
    (SubmissionRequest × Except SubmitError (SubmitStatus × JobRecordV2)) where
  serve := serveSubmit
  lose r _ := r
  stop r := r
  surround r a := some (exec a.1 r a.2)
  Init := (· = Redis.empty)
  handle q := JobCoordinatorV2.submit h q.1 q.2 >>= fun a => .done (q, a)

/-- A job is created under its own request id. -/
def Call.ownRequest : Call → Bool
  | .create job requestId => requestId == job.requestId
  | _ => true

/-- The others make any call they like at any time, a job being created under its request id. -/
def amongCalls : Policy Redis SubmitAsk SubmitChoice (Nat × Call) :=
  ⟨fun _ _ _ => True, fun _ _ => True, fun _ => True, fun _ a => a.2.ownRequest = true⟩

instance (r : Redis) (e : SubmitAsk) (x : SubmitChoice) : Decidable (amongCalls.reply r e x) :=
  .isTrue trivial

instance (r : Redis) (a : Nat × Call) : Decidable (amongCalls.surround r a) :=
  inferInstanceAs (Decidable (a.2.ownRequest = true))

end Ceo.Jobs
