import Ceo.Jobs.Store

/-!
# Read model

How `jobs/v2-service.ts` derives the state, the execution status and the
business outcome it shows for a job from the job record and the record of its
latest attempt.
-/

namespace Ceo.Jobs

inductive HostJobState where
  | queued | expired | claimed | running | terminal
  deriving DecidableEq, Repr

def deriveHostJobState (job : JobRecordV2) (attempt : Option AttemptRecordV1) (nowMs : Nat) :
    Except V2Error HostJobState :=
  match job.status with
  | .preparing => .error (.store .corruptJobState)
  | .queued => if nowMs < job.claimDeadlineMs then .ok .queued else .ok .expired
  | .active =>
    match attempt with
    | none => .error (.store .corruptJobState)
    | some attempt =>
      match attempt.phase with
      | .claimed => .ok .claimed
      | .running => .ok .running
      | .terminal => .error (.store .corruptJobState)
  | .terminal =>
    match attempt with
    | none => if job.cancel.isSome then .ok .terminal else .error (.store .corruptJobState)
    | some attempt =>
      match attempt.phase with
      | .terminal => .ok .terminal
      | _ => .error (.store .corruptJobState)

def jobExecutionStatusView (job : JobRecordV2) (attempt : Option AttemptRecordV1) :
    Option ExecutionStatus :=
  match attempt.bind (·.report) with
  | some report => some report.executionStatus
  | none => if job.cancel.isSome then some .cancelled else none

def jobBusinessOutcomeView (job : JobRecordV2) (attempt : Option AttemptRecordV1) :
    Option BusinessOutcome :=
  match attempt.bind (·.report) with
  | some report => some report.businessOutcome
  | none => if job.cancel.isSome then some .notStarted else none

/-- The attempt a job names, read in the same step as the job. -/
def latestAttempt (r : Redis) (job : JobRecordV2) : Option AttemptRecordV1 :=
  job.latestAttemptId.bind r.attempts

end Ceo.Jobs
