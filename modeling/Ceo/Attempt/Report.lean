import Ceo.Attempt.State

/-!
# The report the connector builds

`ExecutionReport` and its validator (`execution_contract.rs`), the receipt it
carries the digest of, and the records of the outbox and the history.
-/

namespace Ceo.Attempt

open Ceo.Lib Ceo.Jobs

def reportSchemaVersion : Nat := 2
def maxReportErrorMessageBytes : Nat := 2048
def maxExecutorVersionBytes : Nat := 256
def maxSafeInteger : Int := 9007199254740991

structure ExecutionReport where
  schemaVersion : Nat
  executionStatus : ExecutionStatus
  businessOutcome : BusinessOutcome
  taskDispatched : Bool
  finishedAtMs : Int
  durationMs : Int
  executor : ExecutionReportExecutor
  receiptSha256 : String
  error : Option ExecutionReportError
  deriving DecidableEq, Repr

namespace ExecutionReport

def errorGuards (err : ExecutionReportError) : List Guard :=
  [⟨!err.stage.isEmpty && err.stage.utf8ByteSize ≤ 64 &&
      err.stage.toList.all fun c => isAsciiAlphanumeric c || c == '_' || c == '-',
    "Invalid error object: error.stage must be 1-64 [A-Za-z0-9_-]"⟩,
   ⟨!err.code.isEmpty && err.code.utf8ByteSize ≤ 64 &&
      err.code.toList.all fun c => c.isUpper || c.isDigit || c == '_',
    "Invalid error object: error.code must be 1-64 [A-Z0-9_]"⟩,
   ⟨!(trim err.message).isEmpty && err.message.utf8ByteSize ≤ maxReportErrorMessageBytes,
    "Invalid error object: error.message must be non-empty and <= 2048 bytes"⟩]

def guards (r : ExecutionReport) : List Guard :=
  [⟨r.schemaVersion == reportSchemaVersion,
    "Invalid schema_version: expected 2, got " ++ toString r.schemaVersion⟩,
   ⟨0 ≤ r.finishedAtMs && r.finishedAtMs ≤ maxSafeInteger,
    "Invalid finished_at_ms: must be between 0 and 9007199254740991, got " ++
      toString r.finishedAtMs⟩,
   ⟨0 ≤ r.durationMs && r.durationMs ≤ maxSafeInteger,
    "Invalid duration_ms: must be between 0 and 9007199254740991, got " ++ toString r.durationMs⟩,
   ⟨!(r.executionStatus == .completed && r.error.isSome), "Completed report must not have error"⟩,
   ⟨!(r.executionStatus != .completed && r.error.isNone), "Non-completed report must include error"⟩,
   ⟨!(!r.taskDispatched && r.businessOutcome != .notStarted),
    "Undispatched task must have business_outcome NOT_STARTED"⟩,
   ⟨!(r.businessOutcome == .unverified && !r.taskDispatched),
    "Unverified business outcome requires task_dispatched true"⟩,
   ⟨!r.executor.type.isEmpty && r.executor.type.utf8ByteSize ≤ 64 &&
      r.executor.type.toList.all fun c => isAsciiAlphanumeric c || c == '_' || c == '.' || c == '-',
    "Invalid executor: executor.type must be 1-64 [A-Za-z0-9_.-]"⟩,
   ⟨!(trim r.executor.version).isEmpty &&
      r.executor.version.utf8ByteSize ≤ maxExecutorVersionBytes,
    "Invalid executor: executor.version must be non-empty and <= 256 bytes"⟩,
   ⟨isSha256Hex r.receiptSha256,
    "Invalid receipt_sha256: receipt_sha256 must be 64 lowercase hex characters"⟩] ++
  (match r.error with
   | none => []
   | some err => errorGuards err)

def validate (r : ExecutionReport) : Except String Unit := Guard.run r.guards

theorem validate_ok_iff {r : ExecutionReport} : r.validate = .ok () ↔ Guard.All r.guards :=
  Guard.run_ok_iff _

end ExecutionReport

structure ExecutionReceipt where
  schemaVersion : Nat
  jobId : String
  attemptId : String
  targetId : String
  orcaVersion : String
  worktreeId : Option String
  terminalId : Option String
  agentId : Option String
  agentReadyAtMs : Option Int
  dispatchRequestId : Option String
  taskDispatched : Bool
  runtimeCompletionKind : Option String
  dispatchStartedAtMs : Option Int
  runtimeCompletedAtMs : Option Int
  terminalCleanupVerified : Bool
  terminalClosedAtMs : Option Int
  deriving DecidableEq, Repr

/-- A captured managed result: the envelope as its canonical JSON, and its digest. -/
structure CapturedManagedResult where
  envelope : String
  payloadSha256 : String
  deriving DecidableEq, Repr

structure OutboxRecord where
  serverOrigin : String
  deviceId : String
  jobId : String
  attemptId : String
  claimToken : String
  report : ExecutionReport
  managedResult : Option String
  managedResultSha256 : Option String
  createdAtMs : Int
  deriving DecidableEq, Repr

/-- `SanitizedHistoryRecord` -/
structure HistoryRecord where
  jobId : String
  attemptId : String
  targetId : String
  status : String
  receiptSha256 : Option String
  durationMs : Option Int
  terminalReportSha256 : String
  recordedAtMs : Int
  deriving DecidableEq, Repr

/-- The device: what the host gives, and the JSON of what is hashed here. -/
structure Device extends Host where
  serverOrigin : String
  deviceId : String
  reportJson : ExecutionReport → String
  receiptJson : ExecutionReceipt → String

namespace Device

def computeReportSha256 (dev : Device) (report : ExecutionReport) : String :=
  dev.sha256 (dev.reportJson report)

def computeReceiptSha256 (dev : Device) (receipt : ExecutionReceipt) : String :=
  dev.sha256 (dev.receiptJson receipt)

def operatorCancelDigest (dev : Device) (jobId attemptId : String) : String :=
  dev.sha256 ("ceo:operator-cancel\x00" ++ jobId ++ "\x00" ++ attemptId)

end Device

end Ceo.Attempt
