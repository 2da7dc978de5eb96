import Ceo.Jobs.Service

/-!
# What a device asks of the coordinator

`claimJob` and `getJobForDevice` of `JobCoordinatorV2` (`jobs/v2-service.ts`),
as far as a connector acts on the answers.
-/

namespace Ceo.Jobs

open Ceo.Lib

/-- What `resolveEligibleBinding` finds for a device and a target: the enabled binding, and the
workspace of the target. -/
structure EligibleBinding where
  bindingId : String
  workspaceId : String
  deriving DecidableEq, Repr

/-- `claimJob` up to the store call: the job is read, and a claim that its owner does not repeat
needs an eligible binding. -/
def claimRequest (sha256 : String → String) (eligible : String → Option EligibleBinding)
    (deviceId jobId attemptId claimToken : String) (r : Redis) : Except V2Error ClaimParams :=
  if !attemptIdV2Re attemptId then .error (.validation "Invalid attempt_id format.")
  else if !hex64Re claimToken then
    .error (.validation "claim_token must be 64 lowercase hex characters.")
  else
    match getJob r jobId with
    | .error e => .error e
    | .ok none => .error .jobNotFound
    | .ok (some job) =>
      if job.latestAttemptId = some attemptId then
        -- Path A: the owner asks again
        .ok { jobId := jobId
              expectedWorkspaceId := job.workspaceId
              expectedTargetId := job.targetId
              deviceId := deviceId
              targetBindingId := ""
              attemptId := attemptId
              claimTokenSha256 := sha256 claimToken
              isReplayOnly := true }
      else
        -- Path B: a new claim
        match eligible job.targetId with
        | none => .error .jobNotFound
        | some binding =>
          if binding.workspaceId ≠ job.workspaceId then .error .jobNotFound
          else
            .ok { jobId := jobId
                  expectedWorkspaceId := job.workspaceId
                  expectedTargetId := job.targetId
                  deviceId := deviceId
                  targetBindingId := binding.bindingId
                  attemptId := attemptId
                  claimTokenSha256 := sha256 claimToken
                  isReplayOnly := false }

/-- What a connector looks at in the answer of `getJobForDevice`. -/
structure DeviceDetail where
  state : HostJobState
  executionStatus : Option ExecutionStatus
  attemptId : Option String
  deriving DecidableEq, Repr

/-- The job and its attempt read at one moment; when the job is read as terminal its attempt no
longer changes in what is shown here. -/
def deviceDetail (nowMs : Nat) (jobId : String) (r : Redis) : Except V2Error DeviceDetail := do
  match ← getJob r jobId with
  | none => .error .jobNotFound
  | some job =>
    let attempt ← hostAttempt job r
    let state ← deriveHostJobState job attempt nowMs
    return ⟨state, jobExecutionStatusView job attempt, attempt.map (·.attemptId)⟩

end Ceo.Jobs
