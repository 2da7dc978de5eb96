import Ceo.Jobs.Schema
import Ceo.Lib.Decimal

/-!
# Numbers through cjson

A script writes a record with `cjson.encode`, which prints every number with
14 significant digits; the next reader gets the printed number. Strings,
booleans and nulls come back as they were.
-/

namespace Ceo.Jobs

open Ceo.Lib

namespace Cjson

/-- The number read back after `%.14g`. -/
def num (n : Nat) : Nat := Decimal.roundSig 14 n

@[simp] theorem num_num (n : Nat) : num (num n) = num n := Decimal.roundSig_idem (by decide)

theorem num_mono {m n : Nat} (h : m ≤ n) : num m ≤ num n := Decimal.roundSig_mono (by decide) h

theorem num_of_lt {n : Nat} (h : n < 10 ^ 14) : num n = n := Decimal.roundSig_of_lt h

@[simp] theorem num_zero : num 0 = 0 := Decimal.roundSig_zero 14

def encodeReport (r : PersistedExecutionReport) : PersistedExecutionReport :=
  { r with
    schemaVersion := num r.schemaVersion
    finishedAtMs := num r.finishedAtMs
    durationMs := num r.durationMs
    receivedAtMs := num r.receivedAtMs }

def encodeResult (r : PersistedJobResult) : PersistedJobResult :=
  { r with receivedAtMs := num r.receivedAtMs }

def encodeCancel (c : JobCancelRecordV2) : JobCancelRecordV2 :=
  { c with cancelledAtMs := num c.cancelledAtMs }

def encodeJob (j : JobRecordV2) : JobRecordV2 :=
  { j with
    schemaVersion := num j.schemaVersion
    executionTimeoutSeconds := num j.executionTimeoutSeconds
    createdAtMs := num j.createdAtMs
    claimDeadlineMs := num j.claimDeadlineMs
    cancel := j.cancel.map encodeCancel }

def encodeAttempt (a : AttemptRecordV1) : AttemptRecordV1 :=
  { a with
    schemaVersion := num a.schemaVersion
    claimedAtMs := num a.claimedAtMs
    startedAtMs := a.startedAtMs.map num
    report := a.report.map encodeReport
    result := a.result.map encodeResult }

@[simp] theorem encodeReport_idem (r : PersistedExecutionReport) :
    encodeReport (encodeReport r) = encodeReport r := by simp [encodeReport]

@[simp] theorem encodeResult_idem (r : PersistedJobResult) :
    encodeResult (encodeResult r) = encodeResult r := by simp [encodeResult]

@[simp] theorem encodeCancel_idem (c : JobCancelRecordV2) :
    encodeCancel (encodeCancel c) = encodeCancel c := by simp [encodeCancel]

@[simp] theorem encodeJob_idem (j : JobRecordV2) : encodeJob (encodeJob j) = encodeJob j := by
  cases j
  simp [encodeJob, Function.comp_def]

@[simp] theorem encodeAttempt_idem (a : AttemptRecordV1) :
    encodeAttempt (encodeAttempt a) = encodeAttempt a := by
  cases a
  simp [encodeAttempt, Function.comp_def]

end Cjson

end Ceo.Jobs
