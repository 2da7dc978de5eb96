import Ceo.Lib.Server
import Ceo.Jobs.Effect
import Ceo.Jobs.Service

/-!
# The coordinator's methods, command by command

`submitJobResult` and `reportJob` of `JobCoordinatorV2` (`jobs/v2-service.ts`)
as programs: what they ask of Redis, of the resource service and of the clock
is a call each, so that any number of them run at once and everybody else's
scripts run in between.
-/

namespace Ceo.Jobs

open Ceo.Lib

/-- A JSON value; a number is kept as it is written. -/
inductive Json where
  | null
  | bool (b : Bool)
  | num (literal : String)
  | str (s : String)
  | arr (items : List Json)
  | obj (fields : List (String × Json))

structure ManagedResultEnvelope where
  schemaVersion : Nat
  jobId : String
  attemptId : String
  resourceId : String
  summary : String
  operations : List (List (String × Json))

/-- The argument of `applyManagedJobResult`. -/
structure ManagedJobResult where
  jobId : String
  attemptId : String
  resourceId : String
  summary : String
  operations : List (List (String × Json))
  payloadSha256 : String

structure ManagedCommit where
  commit : String
  replayed : Bool

structure CeoError where
  code : String
  message : String
  deriving DecidableEq, Repr

inductive Ask where
  | getJob (jobId : String)
  | getAttempt (attemptId : String)
  | applyManagedJobResult (input : ManagedJobResult)
  | dateNow
  | recordJobResult (p : AttemptParams) (result : PersistedJobResult) (mode : DeliveryMode)
  | reportJob (p : AttemptParams) (report : ExecutionReport)

def Ask.Answer : Ask → Type
  | .getJob _ => Except V2Error (Option JobRecordV2)
  | .getAttempt _ => Except V2Error (Option AttemptRecordV1)
  | .applyManagedJobResult _ => Except CeoError ManagedCommit
  | .dateNow => Nat
  | .recordJobResult _ _ _ => Except V2Error RecordReply
  | .reportJob _ _ => Except V2Error ReportReply

inductive MethodError where
  | v2 (e : V2Error)
  | resource (e : CeoError)
  deriving DecidableEq, Repr

inductive MethodReply where
  | result (replayed : Bool) (serverTime : Nat) (resourceId commit : String)
  | report (replayed : Bool) (serverTime : Nat)
  deriving DecidableEq, Repr

abbrev Method := Program Ask Ask.Answer (Except MethodError MethodReply)

/-- The two digests the methods compute. -/
structure Digests where
  sha256 : String → String
  canonicalSha256 : ManagedResultEnvelope → String

structure SubmitRequest where
  deviceId : String
  jobId : String
  attemptId : String
  claimToken : String
  result : ManagedResultEnvelope
  payloadSha256 : String
  deliveryMode : DeliveryMode

structure ReportRequest where
  deviceId : String
  jobId : String
  attemptId : String
  claimToken : String
  report : ExecutionReport

namespace JobCoordinatorV2

def fail (e : V2Error) : Method := .done (.error (.v2 e))

/-- The reply, at a time `toISOString` can show. -/
def replyAt (reply : Nat → MethodReply) (ms : Nat) : Method :=
  match toIso ms with
  | .error e => fail e
  | .ok t => .done (.ok (reply t))

variable (h : Digests)

/-! ### submitJobResult -/

/-- The transaction has its commit; the attempt is to record it. -/
def recordSubmitted (q : SubmitRequest) (tx : ManagedCommit) : Method :=
  .call .dateNow fun receivedAtMs =>
  .call (.recordJobResult ⟨q.jobId, q.attemptId, q.deviceId, h.sha256 q.claimToken⟩
    { target := .resource
      attemptId := q.attemptId
      payloadSha256 := q.payloadSha256
      resourceId := q.result.resourceId
      commit := tx.commit
      receivedAtMs := receivedAtMs } q.deliveryMode) fun
  | .error e => fail e
  | .ok (.recorded t commit resourceId) =>
    replyAt (.result tx.replayed · resourceId commit) t
  | .ok (.replayed t commit resourceId) => replyAt (.result true · resourceId commit) t

def applySubmitted (q : SubmitRequest) : Method :=
  .call (.applyManagedJobResult
    { jobId := q.jobId
      attemptId := q.attemptId
      resourceId := q.result.resourceId
      summary := q.result.summary
      operations := q.result.operations
      payloadSha256 := q.payloadSha256 }) fun
  | .error e => .done (.error (.resource e))
  | .ok tx => recordSubmitted h q tx

/-- What `submitJobResult` does with the attempt it has read. -/
def submitFor (q : SubmitRequest) (attempt : AttemptRecordV1) : Method :=
  if attempt.jobId ≠ q.jobId then fail (.lifecycle .attemptNotFound)
  else if attempt.deviceId ≠ q.deviceId then fail (.lifecycle .identityMismatch)
  else if attempt.claimTokenSha256 ≠ h.sha256 q.claimToken then
    fail (.lifecycle .identityMismatch)
  else
    match attempt.result with
    | none => applySubmitted h q
    | some result =>
      if result.payloadSha256 = q.payloadSha256 then
        .call .dateNow fun t => replyAt (.result true · result.resourceId result.commit) t
      else if q.deliveryMode ≠ .explicitRedelivery then
        fail (.reportConflict "STALE_RESULT_SUBMISSION")
      else applySubmitted h q

def submitJobResult (q : SubmitRequest) : Method :=
  if !jobIdV2Re q.jobId then fail (.validation "Invalid job_id format.")
  else if !attemptIdV2Re q.attemptId then fail (.validation "Invalid attempt_id format.")
  else if q.claimToken = "" then fail (.validation "claim_token is required.")
  else if h.canonicalSha256 q.result ≠ q.payloadSha256 then
    fail (.validation "payload_sha256 does not match canonical JCS digest of result.")
  else
    .call (.getJob q.jobId) fun
    | .error e => fail e
    | .ok none => fail .jobNotFound
    | .ok (some job) =>
      if job.resultTarget ≠ .resource then fail (.validation "Job result_target is not 'resource'.")
      else if job.resourceId ≠ some q.result.resourceId then
        fail (.validation ("Result resource_id '" ++ q.result.resourceId ++
          "' does not match job resource_id '" ++ job.resourceId.getD "null" ++ "'."))
      else
        .call (.getAttempt q.attemptId) fun
        | .error e => fail e
        | .ok none => fail (.lifecycle .attemptNotFound)
        | .ok (some attempt) => submitFor h q attempt

/-! ### reportJob -/

def sendReport (q : ReportRequest) : Method :=
  .call (.reportJob ⟨q.jobId, q.attemptId, q.deviceId, h.sha256 q.claimToken⟩ q.report) fun
  | .error e => fail e
  | .ok (.reported t) => replyAt (.report false) t
  | .ok (.replayed t) => replyAt (.report true) t

def reportJob (q : ReportRequest) : Method :=
  if !attemptIdV2Re q.attemptId then fail (.validation "Invalid attempt_id format.")
  else if !hex64Re q.claimToken then
    fail (.validation "claim_token must be 64 lowercase hex characters.")
  else
    .call (.getJob q.jobId) fun
    | .error e => fail e
    | .ok none => fail .jobNotFound
    | .ok (some job) =>
      match Guard.run (executionReportSchema q.report) with
      | .error m => fail (.schema m)
      | .ok () =>
        if job.resultTarget = .resource ∧ q.report.executionStatus = .completed then
          .call (.getAttempt q.attemptId) fun
          | .error e => fail e
          | .ok none => fail (.reportConflict "RESULT_REQUIRED")
          | .ok (some attempt) =>
            match attempt.result with
            | none => fail (.reportConflict "RESULT_REQUIRED")
            | some _ => sendReport h q
        else sendReport h q

end JobCoordinatorV2

inductive MethodRequest where
  | submitJobResult (q : SubmitRequest)
  | reportJob (q : ReportRequest)

def handleMethod (h : Digests) : MethodRequest → Method
  | .submitJobResult q => JobCoordinatorV2.submitJobResult h q
  | .reportJob q => JobCoordinatorV2.reportJob h q

/-! ### the server -/

/-- What is chosen outside a method: the Redis clock of a script, the server's clock, and what a
resource transaction comes to. -/
inductive Choice where
  | redisTime (now : Nat)
  | date (ms : Nat)
  | transaction (x : Except CeoError ManagedCommit)

def serveAsk (r : Redis) : (e : Ask) → Choice → Option (e.Answer × Redis)
  | .getJob jobId, .redisTime _ => some (getJob r jobId, r)
  | .getAttempt attemptId, .redisTime _ => some (getAttempt r attemptId, r)
  | .applyManagedJobResult _, .transaction x => some (x, r)
  | .dateNow, .date ms => some (ms, r)
  | .recordJobResult p result mode, .redisTime now => some (recordJobResult now p result mode r)
  | .reportJob p report, .redisTime now => some (reportJob now p report r)
  | _, _ => none

/-- The methods over one Redis, among store calls that other methods make. -/
def coordinator (h : Digests) : Server Redis Ask Ask.Answer Choice (Nat × Call) MethodRequest
    (Except MethodError MethodReply) where
  serve := serveAsk
  lose r _ := r
  stop r := r
  surround r a := some (exec a.1 r a.2)
  Init := (· = Redis.empty)
  handle := handleMethod h

/-- The scripts of the other methods: a result is recorded by `submitJobResult` alone, a report by
`reportJob` alone. -/
def Call.ofOthers : Call → Bool
  | .report _ _ | .recordResult _ _ _ => false
  | _ => true

/-- Any other method makes any call it likes at any time. -/
def amongOthers : Policy Redis Ask Choice (Nat × Call) :=
  ⟨fun _ _ _ => True, fun _ _ => True, fun _ => True, fun _ a => a.2.ofOthers = true⟩

instance (r : Redis) (e : Ask) (x : Choice) : Decidable (amongOthers.reply r e x) :=
  .isTrue trivial

instance (r : Redis) (a : Nat × Call) : Decidable (amongOthers.surround r a) :=
  inferInstanceAs (Decidable (a.2.ofOthers = true))

end Ceo.Jobs
