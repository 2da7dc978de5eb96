import Ceo.Lib.Guard
import Ceo.Lib.Pattern

/-!
# Execution contract

The wire and persisted forms of an execution report and of a managed result
(`jobs/execution-contract.ts`). A schema is the list of its checks in the
order in which it raises issues; `validate…` throws the first one.
-/

namespace Ceo.Jobs

open Ceo.Lib

def maxSafeInteger : Nat := 9007199254740991

/-! ### string measures -/

/-- The code points `String.prototype.trim` strips. -/
def isJsSpace (c : Char) : Bool :=
  let n := c.toNat
  (9 ≤ n && n ≤ 13) || n == 0x20 || n == 0xA0 || n == 0x1680 || (0x2000 ≤ n && n ≤ 0x200A)
    || n == 0x2028 || n == 0x2029 || n == 0x202F || n == 0x205F || n == 0x3000 || n == 0xFEFF

def isWhitespaceOnly (s : String) : Bool := s.toList.all isJsSpace

def utf8ByteLength (s : String) : Nat := s.utf8ByteSize

/-- `s.length` of JavaScript: UTF-16 code units. -/
def jsLength (s : String) : Nat :=
  (s.toList.map fun c => if c.toNat < 0x10000 then 1 else 2).sum

def maxReportErrorMessageBytes : Nat := 2 * 1024
def maxExecutorVersionBytes : Nat := 256

/-! ### the records -/

inductive ResultTarget where
  | none | resource
  deriving DecidableEq, Repr

inductive ExecutionStatus where
  | completed | failed | timedOut | cancelled | blocked | interrupted
  deriving DecidableEq, Repr

inductive BusinessOutcome where
  | unverified | failed | notStarted
  deriving DecidableEq, Repr

structure ExecutionReportError where
  stage : String
  code : String
  message : String
  deriving DecidableEq, Repr

structure ExecutionReportExecutor where
  type : String
  version : String
  deriving DecidableEq, Repr

structure ExecutionReport where
  schemaVersion : Nat
  executionStatus : ExecutionStatus
  businessOutcome : BusinessOutcome
  taskDispatched : Bool
  finishedAtMs : Nat
  durationMs : Nat
  executor : ExecutionReportExecutor
  receiptSha256 : String
  error : Option ExecutionReportError
  deriving DecidableEq, Repr

structure PersistedExecutionReport extends ExecutionReport where
  receivedAtMs : Nat
  deriving DecidableEq, Repr

structure PersistedJobResult where
  target : ResultTarget
  attemptId : String
  payloadSha256 : String
  resourceId : String
  commit : String
  receivedAtMs : Nat
  deriving DecidableEq, Repr

/-! ### formats -/

def hex64Re : String → Bool := Pattern.test (Pattern.rep 64 Pattern.hex)

theorem utf8ByteLength_of_hex64Re {s : String} (h : hex64Re s = true) : utf8ByteLength s = 64 := by
  have hp : ∀ q ∈ Pattern.rep 64 Pattern.hex, Pattern.OneByte q := by
    intro q hq
    rw [List.eq_of_mem_replicate hq]
    exact Pattern.oneByte_hex
  simpa [Pattern.rep, utf8ByteLength] using Pattern.utf8ByteSize_of_test hp h

/-- `/^(?:att[_-])?<uuid>$/i` -/
def attemptIdV2Re (s : String) : Bool :=
  let uuid := Pattern.uuid Pattern.hexAnyCase
  Pattern.test uuid s
    || Pattern.test (Pattern.litAnyCase "att" ++ [fun c => c == '_' || c == '-'] ++ uuid) s

/-- `/^res-<uuid>$/i` -/
def resourceIdV2Re : String → Bool :=
  Pattern.test (Pattern.litAnyCase "res-" ++ Pattern.uuid Pattern.hexAnyCase)

def letter (c : Char) : Bool := ('a' ≤ c && c ≤ 'z') || ('A' ≤ c && c ≤ 'Z')

/-- A name of 1 to 64 characters of one class; every check fails with the same message. -/
def nameGuards (cls : Char → Bool) (message : String) (s : String) : List Guard :=
  [⟨1 ≤ jsLength s, message⟩,
   ⟨jsLength s ≤ 64, message⟩,
   ⟨s != "" && s.toList.all cls, message⟩]

/-- A text with something in it, of at most `bytes` bytes. -/
def textGuards (field : String) (bytes : Nat) (size : String) (s : String) : List Guard :=
  [⟨1 ≤ jsLength s, field ++ " must be non-empty"⟩,
   ⟨!isWhitespaceOnly s, field ++ " must not be whitespace-only"⟩,
   ⟨utf8ByteLength s ≤ bytes, field ++ " exceeds " ++ size ++ " (UTF-8)"⟩]

def safeIntegerGuard (field : String) (n : Nat) : Guard :=
  ⟨n ≤ maxSafeInteger, field ++ " must be a nonnegative safe integer"⟩

def sha256Hex (s : String) : Guard := ⟨hex64Re s, "must be 64 lowercase hex chars"⟩

/-! ### schemas -/

def reportErrorSchema (e : ExecutionReportError) : List Guard :=
  nameGuards (fun c => letter c || Pattern.digit c || c == '_' || c == '-')
    "error.stage must be 1-64 [A-Za-z0-9_-]" e.stage ++
  nameGuards (fun c => ('A' ≤ c && c ≤ 'Z') || Pattern.digit c || c == '_')
    "error.code must be 1-64 [A-Z0-9_]" e.code ++
  textGuards "error.message" maxReportErrorMessageBytes "2 KiB" e.message

def executorSchema (e : ExecutionReportExecutor) : List Guard :=
  nameGuards (fun c => letter c || Pattern.digit c || c == '_' || c == '.' || c == '-')
    "executor.type must be 1-64 [A-Za-z0-9_.-]" e.type ++
  textGuards "executor.version" maxExecutorVersionBytes "256 bytes" e.version

/-- The field checks both report schemas make. -/
def reportFields (r : ExecutionReport) : List Guard :=
  [⟨r.schemaVersion == 2, "Invalid input: expected 2"⟩,
   safeIntegerGuard "finished_at_ms" r.finishedAtMs,
   safeIntegerGuard "duration_ms" r.durationMs] ++
  executorSchema r.executor ++
  [sha256Hex r.receiptSha256] ++
  (match r.error with
   | none => []
   | some e => reportErrorSchema e)

/-- The `superRefine` of both report schemas. -/
def reportRefinements (r : ExecutionReport) : List Guard :=
  [⟨!(r.executionStatus == .completed && r.error.isSome), "completed report must not have error"⟩,
   ⟨!(r.executionStatus != .completed && r.error.isNone), "non-completed report must include error"⟩,
   ⟨!(!r.taskDispatched && r.businessOutcome != .notStarted),
    "undispatched task must have business_outcome NOT_STARTED"⟩,
   ⟨!(r.businessOutcome == .unverified && !r.taskDispatched),
    "unverified business outcome requires task_dispatched true"⟩]

def executionReportSchema (r : ExecutionReport) : List Guard :=
  reportFields r ++ reportRefinements r

def persistedExecutionReportSchema (r : PersistedExecutionReport) : List Guard :=
  reportFields r.toExecutionReport ++ [safeIntegerGuard "received_at_ms" r.receivedAtMs] ++
    reportRefinements r.toExecutionReport

def persistedJobResultSchema (r : PersistedJobResult) : List Guard :=
  [⟨r.target == .resource, "Invalid input: expected \"resource\""⟩,
   ⟨attemptIdV2Re r.attemptId, "attempt_id must be a valid UUID or att_<uuid>"⟩,
   sha256Hex r.payloadSha256,
   ⟨resourceIdV2Re r.resourceId, "resource_id must be a res-<uuid>"⟩,
   ⟨1 ≤ jsLength r.commit, "commit must be non-empty"⟩,
   ⟨!isWhitespaceOnly r.commit, "commit must not be whitespace-only"⟩,
   safeIntegerGuard "received_at_ms" r.receivedAtMs]

def validatePersistedExecutionReport (r : PersistedExecutionReport) :
    Except String PersistedExecutionReport := do
  Guard.run (Guard.wrap "Invalid execution report: " (persistedExecutionReportSchema r))
  return r

def validatePersistedJobResult (r : PersistedJobResult) : Except String PersistedJobResult := do
  Guard.run (Guard.wrap "Invalid job result: " (persistedJobResultSchema r))
  return r

end Ceo.Jobs
