import Ceo.Jobs.Immutable

/-!
# Records their parsers accept

What the scripts write is checked by the scripts, what a reader gets is
checked by the parsers of `v2-schema.ts`. `Closed` says that every stored
record passes its parser and carries times a reader can show; `Keeps` is the
condition on a call, and on the store it meets, under which it stays so.
-/

namespace Ceo.Jobs

open Ceo.Lib Function

/-! ### times through cjson -/

/-- The time, as it is stored, can be shown. -/
def Shows (ms : Nat) : Prop := Cjson.num ms ≤ maxDateMs

instance (ms : Nat) : Decidable (Shows ms) := inferInstanceAs (Decidable (_ ≤ _))

theorem num_maxDateMs : Cjson.num maxDateMs = maxDateMs := by decide +kernel

theorem shows_of_le {ms : Nat} (h : ms ≤ maxDateMs) : Shows ms :=
  (Cjson.num_mono h).trans num_maxDateMs.le

theorem maxDateMs_le_maxSafe : maxDateMs ≤ maxSafeInteger := by decide

theorem Shows.safe {ms : Nat} (h : Shows ms) : Cjson.num ms ≤ maxSafeInteger :=
  h.trans maxDateMs_le_maxSafe

theorem Shows.le {ms : Nat} (h : Shows ms) : ms ≤ maxSafeInteger := by
  by_contra hlt
  have hmono : Cjson.num maxSafeInteger ≤ Cjson.num ms := Cjson.num_mono (by omega)
  have hnum : maxDateMs < Cjson.num maxSafeInteger := by decide +kernel
  unfold Shows at h
  omega

/-- Rounding moves a number of at most 17 digits by less than 1000. -/
theorem num_near {n : Nat} (h : n + 1000 < 10 ^ 17) :
    n ≤ Cjson.num n + 1000 ∧ Cjson.num n ≤ n + 1000 := by
  have exact (q : Nat) (hq : 1000 * q < 10 ^ 17) : Cjson.num (1000 * q) = 1000 * q := by
    apply Decimal.roundSig_of_dvd
    rcases Nat.eq_zero_or_pos q with rfl | hpos
    · simp
    have hlog : Nat.log 10 (1000 * q) < 17 := Nat.log_lt_of_lt_pow (by omega) hq
    have hexcess : Decimal.excess 14 (1000 * q) ≤ 3 := by
      unfold Decimal.excess
      omega
    exact (pow_dvd_pow 10 hexcess).trans (Nat.dvd_mul_right _ _)
  have lower : 1000 * (n / 1000) ≤ Cjson.num n := by
    rw [← exact (n / 1000) (by omega)]
    exact Cjson.num_mono (by omega)
  have upper : Cjson.num n ≤ 1000 * (n / 1000 + 1) := by
    rw [← exact (n / 1000 + 1) (by omega)]
    exact Cjson.num_mono (by omega)
  omega

/-! ### strings the scripts make -/

theorem jsLength_append (a b : String) : jsLength (a ++ b) = jsLength a + jsLength b := by
  simp [jsLength]

theorem jsLength_cancelReason {userId : String} (h : jsLength userId ≤ 128) :
    1 ≤ jsLength (cancelReason userId) ∧ jsLength (cancelReason userId) ≤ 256 := by
  have pre : jsLength "operator cancel by user " = 24 := by decide +kernel
  have post : jsLength " via ceo-connector CLI" = 22 := by decide +kernel
  unfold cancelReason
  rw [jsLength_append, jsLength_append, pre, post]
  omega

theorem digit_of_toDigits {n : Nat} {c : Char} (h : c ∈ Nat.toDigits 10 n) :
    Pattern.digit c = true := by
  have hd := Nat.isDigit_of_mem_toDigits (by decide) (by decide) h
  simpa [Pattern.digit, Char.isDigit, Char.le_def] using hd

theorem streamEntryIdChars_digits {ds es : List Char} (hds : ds ≠ [])
    (digits : ∀ c ∈ ds, Pattern.digit c = true) (hes : digits1 es = true) :
    streamEntryIdChars (ds ++ '-' :: es) = true := by
  induction ds with
  | nil => exact absurd rfl hds
  | cons c cs ih =>
    rw [List.cons_append, streamEntryIdChars, digits c (by simp), Bool.true_and]
    by_cases hcs : cs = []
    · simp [hcs, hes]
    · rw [ih hcs fun d hd => digits d (by simp [hd])]
      rfl

/-- The id of a stream entry has the form its readers ask for. -/
theorem streamEntryIdRe_text (i : StreamId) : streamEntryIdRe i.text = true := by
  have chars : i.text.toList = Nat.toDigits 10 i.ms ++ '-' :: Nat.toDigits 10 i.seq := by
    simp [StreamId.text]
  unfold streamEntryIdRe
  rw [chars]
  apply streamEntryIdChars_digits Nat.toDigits_ne_nil fun c => digit_of_toDigits
  simp only [digits1, Bool.and_eq_true, Bool.not_eq_true', List.isEmpty_eq_false_iff]
  exact ⟨Nat.toDigits_ne_nil, List.all_eq_true.2 fun c => digit_of_toDigits⟩

/-! ### job records -/

/-- The record passes its parser, and its times can be shown. -/
structure JobRecordV2.Closed (job : JobRecordV2) : Prop where
  accepted : job.Accepted
  deadline : job.claimDeadlineMs ≤ maxDateMs

theorem JobRecordV2.accepted_iff (job : JobRecordV2) :
    job.Accepted ↔ Guard.All (jobFieldGuards job) ∧ Guard.All (jobStateGuards job) ∧
      ∀ c, job.cancel = some c → Guard.All (jobCancelGuards c) := by
  unfold JobRecordV2.Accepted jobRecordGuards
  cases job.cancel <;> simp

/-- What the state checks ask of a job past its creation. -/
theorem JobRecordV2.Accepted.stream {job : JobRecordV2} (h : job.Accepted)
    (hs : job.status ≠ .preparing) :
    job.streamEntryId.isSome = true ∧ optAll streamEntryIdRe job.streamEntryId = true ∧
      optAll attemptIdV2Re job.latestAttemptId = true := by
  have hstate := ((JobRecordV2.accepted_iff job).1 h).2.1
  have no_attempt : optAll attemptIdV2Re none = true := rfl
  unfold jobStateGuards at hstate
  cases hst : job.status with
  | preparing => exact absurd hst hs
  | _ => simp_all

section job

variable {job : JobRecordV2}

theorem encodeJob_claimed (h : Cjson.encodeJob job = job) (attemptId : String) :
    Cjson.encodeJob (claimedJob job attemptId) = claimedJob job attemptId := by
  calc Cjson.encodeJob (claimedJob job attemptId)
      = claimedJob (Cjson.encodeJob job) attemptId := by simp only [Cjson.encodeJob, claimedJob]
    _ = claimedJob job attemptId := by rw [h]

theorem encodeJob_reported (h : Cjson.encodeJob job = job) :
    Cjson.encodeJob (reportedJob job) = reportedJob job := by
  calc Cjson.encodeJob (reportedJob job)
      = reportedJob (Cjson.encodeJob job) := by simp only [Cjson.encodeJob, reportedJob]
    _ = reportedJob job := by rw [h]

theorem encodeJob_cancelled (h : Cjson.encodeJob job = job) (now : Nat) (p : CancelParams) :
    Cjson.encodeJob (cancelledJob now job p) = cancelledJob (Cjson.num now) job p := by
  calc Cjson.encodeJob (cancelledJob now job p)
      = cancelledJob (Cjson.num now) (Cjson.encodeJob job) p := by
        simp only [Cjson.encodeJob, cancelledJob, Cjson.encodeCancel, Option.map_some]
    _ = cancelledJob (Cjson.num now) job p := by rw [h]

theorem JobRecordV2.Closed.claimed (C : job.Closed) (queued : job.status = .queued)
    {attemptId : String} (ok : attemptIdV2Re attemptId = true) :
    (claimedJob job attemptId).Closed := by
  obtain ⟨fields, state, cancel⟩ := (JobRecordV2.accepted_iff job).1 C.accepted
  obtain ⟨some_entry, entry, -⟩ := C.accepted.stream (by simp [queued])
  refine ⟨(JobRecordV2.accepted_iff _).2 ⟨fields, ?_, cancel⟩, C.deadline⟩
  have hatt : optAll attemptIdV2Re (some attemptId) = true := ok
  simp [jobStateGuards, claimedJob, some_entry, entry, hatt]

theorem JobRecordV2.Closed.reported (C : job.Closed) (active : job.status = .active)
    {attemptId : String} (latest : job.latestAttemptId = some attemptId) :
    (reportedJob job).Closed := by
  obtain ⟨fields, state, cancel⟩ := (JobRecordV2.accepted_iff job).1 C.accepted
  obtain ⟨some_entry, entry, hatt⟩ := C.accepted.stream (by simp [active])
  refine ⟨(JobRecordV2.accepted_iff _).2 ⟨fields, ?_, cancel⟩, C.deadline⟩
  simp_all [jobStateGuards, reportedJob]

theorem JobRecordV2.Closed.cancelled (C : job.Closed) (live : job.status ≠ .preparing) {now : Nat}
    (shows_now : now ≤ maxDateMs) {p : CancelParams} (device : deviceIdV2Re p.deviceId = true)
    (reason : 1 ≤ jsLength p.reason ∧ jsLength p.reason ≤ 256) : (cancelledJob now job p).Closed := by
  obtain ⟨fields, state, -⟩ := (JobRecordV2.accepted_iff job).1 C.accepted
  obtain ⟨some_entry, entry, hatt⟩ := C.accepted.stream live
  refine ⟨(JobRecordV2.accepted_iff _).2 ⟨fields, ?_, ?_⟩, C.deadline⟩
  · simp [jobStateGuards, cancelledJob, some_entry, entry, hatt]
  · rintro c ⟨⟩
    have safe : now ≤ maxSafeInteger := shows_now.trans maxDateMs_le_maxSafe
    simp [jobCancelGuards, safe, device, reason.1, reason.2]

/-- The record a submission creates passes its parser again once it is stored. -/
theorem JobRecordV2.Closed.created {scope : Scope} {input : SubmitJobInput} {jobId digest : String}
    {now : Nat} (accepted : (submitRecord scope input jobId digest now).Accepted)
    (deadline : Shows (now + jobClaimTtlMsV2)) (date : now ≤ maxDateMs) (entry : StreamId) :
    (Cjson.encodeJob (createdJob (submitRecord scope input jobId digest now) entry)).Closed := by
  obtain ⟨fields, -, -⟩ := (JobRecordV2.accepted_iff _).1 accepted
  unfold Shows at deadline
  have hmax : maxDateMs = 8640000000000000 := rfl
  have httl : jobClaimTtlMsV2 = 604800000 := rfl
  have order : Cjson.num now < Cjson.num (now + jobClaimTtlMsV2) := by
    have h1 := num_near (n := now) (by omega)
    have h2 := num_near (n := now + jobClaimTtlMsV2) (by omega)
    omega
  refine ⟨(JobRecordV2.accepted_iff _).2 ⟨?_, ?_, ?_⟩, ?_⟩
  · simp only [jobFieldGuards, submitRecord, Guard.all_cons, Guard.all_nil, and_true,
      Bool.and_eq_true] at fields
    obtain ⟨h1, h2, h3, h4, h5, h6, h7, h8, h9, h10, h11, h12, h13, h14, h15, h16⟩ := fields
    have hto : input.executionTimeoutSeconds < 10 ^ 14 := by
      have h := of_decide_eq_true h13.2
      have hmt : maxTimeoutSeconds = 7200 := rfl
      omega
    have hsafe : Cjson.num now ≤ maxSafeInteger :=
      (shows_of_le date).safe
    simp only [jobFieldGuards, Cjson.encodeJob, createdJob, submitRecord, Guard.all_cons,
      Guard.all_nil, and_true, Bool.and_eq_true, Cjson.num_of_lt hto]
    refine ⟨?_, h2, h3, h4, h5, h6, h7, h8, h9, h10, h11, h12, h13, h14, decide_eq_true hsafe,
      decide_eq_true order, decide_eq_true (deadline.trans maxDateMs_le_maxSafe)⟩
    rw [Cjson.num_of_lt (by decide)]
    rfl
  · simp [jobStateGuards, Cjson.encodeJob, createdJob, optAll, streamEntryIdRe_text]
  · rintro c hc
    simp [Cjson.encodeJob, createdJob, submitRecord] at hc
  · simpa only [Cjson.encodeJob, createdJob, submitRecord] using deadline

end job

/-! ### attempt records -/

/-- The record passes its parser, its times can be shown, and it was claimed by then. -/
structure AttemptRecordV1.Closed (clock : Nat) (att : AttemptRecordV1) : Prop where
  accepted : att.Accepted
  past : att.claimedAtMs ≤ Cjson.num clock
  claimed : att.claimedAtMs ≤ maxDateMs
  started : ∀ t, att.startedAtMs = some t → t ≤ maxDateMs
  report : ∀ rep, att.report = some rep → rep.finishedAtMs ≤ maxDateMs ∧ rep.receivedAtMs ≤ maxDateMs
  result : ∀ res, att.result = some res → res.receivedAtMs ≤ maxDateMs

theorem AttemptRecordV1.accepted_iff (att : AttemptRecordV1) :
    att.Accepted ↔ Guard.All (attemptFieldGuards att) ∧ Guard.All (attemptStateGuards att) := by
  unfold AttemptRecordV1.Accepted attemptRecordGuards
  simp

/-- The report as it is stored passes the schema it is read back with. -/
theorem persisted_of_schema {rep : ExecutionReport} (h : Guard.All (executionReportSchema rep))
    (finished : Cjson.num rep.finishedAtMs ≤ maxSafeInteger)
    (duration : Cjson.num rep.durationMs ≤ maxSafeInteger) {now : Nat}
    (received : Cjson.num now ≤ maxSafeInteger) :
    Guard.All (persistedExecutionReportSchema
      (Cjson.encodeReport { toExecutionReport := rep, receivedAtMs := now })) := by
  simp only [executionReportSchema, reportFields, safeIntegerGuard, Guard.all_append, Guard.all_cons,
    Guard.all_nil, and_true, beq_iff_eq] at h
  obtain ⟨⟨⟨⟨⟨version, -, -⟩, executor⟩, receipt⟩, err⟩, refined⟩ := h
  simp only [persistedExecutionReportSchema, reportFields, safeIntegerGuard, Guard.all_append,
    Guard.all_cons, Guard.all_nil, and_true, Cjson.encodeReport, version, beq_iff_eq]
  exact ⟨⟨⟨⟨⟨⟨Cjson.num_of_lt (by decide), decide_eq_true finished, decide_eq_true duration⟩,
    executor⟩, receipt⟩, err⟩, decide_eq_true received⟩, refined⟩

theorem cancelReport_schema (now : Nat) (att : AttemptRecordV1) {receipt : String}
    (ok : hex64Re receipt = true) (safe : now ≤ maxSafeInteger) :
    Guard.All (executionReportSchema (cancelReport now att receipt).toExecutionReport) := by
  have names : Guard.All (executorSchema ⟨"operator", "1.0.0"⟩) := by
    have h : (executorSchema ⟨"operator", "1.0.0"⟩).all (·.holds) = true := by decide +kernel
    exact fun g hg => List.all_eq_true.1 h g hg
  have error : Guard.All (reportErrorSchema ⟨"orchestration", "OPERATOR_CANCELLED",
      "Job cancelled by operator before completion."⟩) := by
    have h : (reportErrorSchema ⟨"orchestration", "OPERATOR_CANCELLED",
      "Job cancelled by operator before completion."⟩).all (·.holds) = true := by decide +kernel
    exact fun g hg => List.all_eq_true.1 h g hg
  have duration : (cancelReport now att receipt).durationMs ≤ maxSafeInteger := by
    unfold cancelReport
    dsimp only
    split_ifs <;> omega
  simp only [executionReportSchema, reportFields, reportRefinements, safeIntegerGuard, sha256Hex,
    Guard.all_append, Guard.all_cons, Guard.all_nil, and_true]
  refine ⟨⟨⟨⟨⟨rfl, decide_eq_true safe, decide_eq_true duration⟩, names⟩, ok⟩, error⟩, rfl, rfl, ?_, ?_⟩
  · cases hp : att.phase <;> simp [cancelReport, hp]
  · cases hp : att.phase <;> simp [cancelReport, hp]

section attempt

variable {att : AttemptRecordV1} {clock now : Nat}

theorem AttemptRecordV1.Accepted.of_claimed (h : att.Accepted) (hp : att.phase = .claimed) :
    att.startedAtMs = none ∧ att.report = none ∧ att.result = none := by
  have hst := ((AttemptRecordV1.accepted_iff att).1 h).2
  simpa [attemptStateGuards, hp] using hst

theorem AttemptRecordV1.Accepted.of_running (h : att.Accepted) (hp : att.phase = .running) :
    startedOk att = true ∧ att.report = none ∧ Guard.All (attemptResultGuards att) := by
  have hst := ((AttemptRecordV1.accepted_iff att).1 h).2
  simpa [attemptStateGuards, hp, and_assoc] using hst

theorem AttemptRecordV1.Closed.later (C : att.Closed clock) (le : clock ≤ now) : att.Closed now :=
  ⟨C.accepted, C.past.trans (Cjson.num_mono le), C.claimed, C.started, C.report, C.result⟩

/-- The record a claim writes. -/
theorem AttemptRecordV1.Closed.new {job : JobRecordV2} (J : job.Closed) {p : ClaimParams}
    (attemptId : attemptIdV2Re p.attemptId = true) (device : deviceIdV2Re p.deviceId = true)
    (token : hex64Re p.claimTokenSha256 = true)
    (binding : targetBindingIdV2Re p.targetBindingId = true) (shows_now : Shows now) :
    (Cjson.encodeAttempt (claimedAttempt now job p)).Closed now := by
  obtain ⟨fields, -, -⟩ := (JobRecordV2.accepted_iff job).1 J.accepted
  simp only [jobFieldGuards, Guard.all_cons] at fields
  obtain ⟨-, jobId, -, user, workspace, target, -⟩ := fields
  refine ⟨(AttemptRecordV1.accepted_iff _).2 ⟨?_, ?_⟩, ?_, ?_, ?_, ?_, ?_⟩
  · simp only [attemptFieldGuards, Cjson.encodeAttempt, claimedAttempt, newAttempt, Guard.all_cons,
      Guard.all_nil, and_true]
    refine ⟨?_, attemptId, jobId, user, workspace, target, device, binding, token,
      decide_eq_true shows_now.safe⟩
    rw [Cjson.num_of_lt (by decide)]
    rfl
  · simp [attemptStateGuards, Cjson.encodeAttempt, claimedAttempt, newAttempt]
  · simp [Cjson.encodeAttempt, claimedAttempt, newAttempt]
  · show Cjson.num now ≤ maxDateMs
    exact shows_now
  · simp [Cjson.encodeAttempt, claimedAttempt, newAttempt]
  · simp [Cjson.encodeAttempt, claimedAttempt, newAttempt]
  · simp [Cjson.encodeAttempt, claimedAttempt, newAttempt]

theorem encodeAttempt_started (h : Cjson.encodeAttempt att = att) (now : Nat) :
    Cjson.encodeAttempt (startedAttempt now att) = startedAttempt (Cjson.num now) att := by
  calc Cjson.encodeAttempt (startedAttempt now att)
      = startedAttempt (Cjson.num now) (Cjson.encodeAttempt att) := by
        simp only [Cjson.encodeAttempt, startedAttempt, Option.map_some]
    _ = startedAttempt (Cjson.num now) att := by rw [h]

/-- The record with a report put in, as it is stored. -/
def withReport (att : AttemptRecordV1) (report : PersistedExecutionReport) : AttemptRecordV1 :=
  { att with phase := .terminal, report := some report }

theorem encodeAttempt_withReport (h : Cjson.encodeAttempt att = att)
    (report : PersistedExecutionReport) :
    Cjson.encodeAttempt (withReport att report) = withReport att (Cjson.encodeReport report) := by
  calc Cjson.encodeAttempt (withReport att report)
      = withReport (Cjson.encodeAttempt att) (Cjson.encodeReport report) := by
        simp only [Cjson.encodeAttempt, withReport, Option.map_some]
    _ = withReport att (Cjson.encodeReport report) := by rw [h]

/-- The record with a result put in, as it is stored. -/
def withResult (att : AttemptRecordV1) (result : PersistedJobResult) : AttemptRecordV1 :=
  { att with result := some result }

theorem encodeAttempt_withResult (h : Cjson.encodeAttempt att = att) (result : PersistedJobResult) :
    Cjson.encodeAttempt (withResult att result) = withResult att (Cjson.encodeResult result) := by
  calc Cjson.encodeAttempt (withResult att result)
      = withResult (Cjson.encodeAttempt att) (Cjson.encodeResult result) := by
        simp only [Cjson.encodeAttempt, withResult, Option.map_some]
    _ = withResult att (Cjson.encodeResult result) := by rw [h]

theorem AttemptRecordV1.Closed.start (C : att.Closed clock) (hp : att.phase = .claimed)
    (le : clock ≤ now) (shows_now : Shows now) :
    (startedAttempt (Cjson.num now) att).Closed now := by
  obtain ⟨-, no_report, no_result⟩ := C.accepted.of_claimed hp
  obtain ⟨fields, -⟩ := (AttemptRecordV1.accepted_iff att).1 C.accepted
  have past := C.past.trans (Cjson.num_mono le)
  have started : startedOk (startedAttempt (Cjson.num now) att) = true := by
    simp only [startedOk, startedAttempt, Bool.and_eq_true]
    exact ⟨decide_eq_true past, decide_eq_true shows_now.safe⟩
  refine ⟨(AttemptRecordV1.accepted_iff _).2 ⟨fields, ?_⟩, past, C.claimed, ?_, ?_, ?_⟩
  · show Guard.All (_ :: _ :: attemptResultGuards _)
    simp only [Guard.all_cons]
    refine ⟨started, by simp [startedAttempt, no_report], ?_⟩
    simp [attemptResultGuards, startedAttempt, no_result]
  · rintro t ⟨⟩
    exact shows_now
  · intro rep h
    simp [startedAttempt, no_report] at h
  · intro res h
    simp [startedAttempt, no_result] at h

/-- A report put into a live record: dispatched after a start, undispatched without a result. -/
theorem AttemptRecordV1.Closed.report_in (C : att.Closed clock) (le : clock ≤ now)
    {report : PersistedExecutionReport} (schema : Guard.All (persistedExecutionReportSchema report))
    (live : att.phase ≠ .terminal)
    (dispatched : report.taskDispatched = true → att.phase = .running)
    (undispatched : report.taskDispatched = false → att.result = none)
    (finished : report.finishedAtMs ≤ maxDateMs) (received : report.receivedAtMs ≤ maxDateMs) :
    (withReport att report).Closed now := by
  obtain ⟨fields, -⟩ := (AttemptRecordV1.accepted_iff att).1 C.accepted
  have started (hp : att.phase = .running) : startedOk (withReport att report) = true :=
    (C.accepted.of_running hp).1
  refine ⟨(AttemptRecordV1.accepted_iff _).2 ⟨fields, ?_⟩, C.past.trans (Cjson.num_mono le),
    C.claimed, C.started, ?_, C.result⟩
  · simp only [attemptStateGuards, withReport, Guard.all_append, Guard.all_wrap]
    refine ⟨schema, ?_⟩
    cases hd : report.taskDispatched with
    | true =>
      have hp := dispatched hd
      simp only [if_true, Guard.all_append, Guard.all_cons, Guard.all_nil, and_true]
      exact ⟨started hp, (C.accepted.of_running hp).2.2⟩
    | false =>
      simp only [Bool.false_eq_true, if_false, Guard.all_cons, Guard.all_nil, and_true]
      refine ⟨?_, by simp [undispatched hd]⟩
      cases hp : att.phase with
      | claimed => simp [(C.accepted.of_claimed hp).1]
      | running => exact Bool.or_eq_true_iff.2 (.inr (started hp))
      | terminal => exact absurd hp live
  · rintro rep ⟨⟩
    exact ⟨finished, received⟩

/-- A result put into a record that can hold one. -/
theorem AttemptRecordV1.Closed.result_in (C : att.Closed clock) (le : clock ≤ now)
    {result : PersistedJobResult} (schema : Guard.All (persistedJobResultSchema result))
    (id : result.attemptId = att.attemptId) (received : result.receivedAtMs ≤ maxDateMs)
    (holds : att.phase = .running ∨
      att.phase = .terminal ∧ ∃ rep, att.report = some rep ∧ rep.taskDispatched = true) :
    (withResult att result).Closed now := by
  obtain ⟨fields, state⟩ := (AttemptRecordV1.accepted_iff att).1 C.accepted
  have results : Guard.All (attemptResultGuards (withResult att result)) := by
    simp [attemptResultGuards, withResult, schema, id]
  refine ⟨(AttemptRecordV1.accepted_iff _).2 ⟨fields, ?_⟩, C.past.trans (Cjson.num_mono le),
    C.claimed, C.started, C.report, ?_⟩
  · rcases holds with hp | ⟨hp, rep, hrep, hd⟩
    · obtain ⟨started, no_report, -⟩ := C.accepted.of_running hp
      have hp' : (withResult att result).phase = .running := hp
      simp only [attemptStateGuards, hp', Guard.all_append, Guard.all_cons, Guard.all_nil, and_true]
      refine ⟨⟨started, ?_⟩, results⟩
      simp [withResult, no_report]
    · have hp' : (withResult att result).phase = .terminal := hp
      have hrep' : (withResult att result).report = some rep := hrep
      simp only [attemptStateGuards, hp, hrep, hd, if_true, Guard.all_append, Guard.all_cons,
        Guard.all_nil, and_true] at state
      simp only [attemptStateGuards, hp', hrep', hd, if_true, Guard.all_append, Guard.all_cons,
        Guard.all_nil, and_true]
      exact ⟨state.1, state.2.1, results⟩
  · rintro res ⟨⟩
    exact received

end attempt

/-! ### the invariant -/

/-- The condition on a call under which the records it writes pass their parsers and show: times
that a reader can show, and a result only for an attempt that can hold one. -/
def Keeps (w : World) (a : Nat × Call) : Prop :=
  match a.2 with
  | .create job _ => Shows job.claimDeadlineMs
  | .claim _ | .start _ | .cancel _ => Shows a.1
  | .report p rep =>
    ∀ att, w.redis.attempts p.attemptId = some att → att.deviceId = p.deviceId →
      att.claimTokenSha256 = p.claimTokenSha256 → att.phase ≠ .terminal →
      Shows a.1 ∧ Shows rep.finishedAtMs ∧ Cjson.num rep.durationMs ≤ maxSafeInteger ∧
        (rep.taskDispatched = false → att.result = none)
  | .recordResult p _ _ =>
    Shows a.1 ∧ ∀ att, w.redis.attempts p.attemptId = some att → att.deviceId = p.deviceId →
      att.claimTokenSha256 = p.claimTokenSha256 →
      att.phase = .running ∨ ∃ rep, att.report = some rep ∧ rep.taskDispatched = true
  | .setFence _ _ | .pruneTargetQueue _ _ => True

/-- The store under calls the coordinator makes, at a clock that never goes back, all of which
keep the records closed. -/
def closing : LTS World (Nat × Call) := clocked.guard fun w a => a.2.Passed ∧ Keeps w a

structure Closed (w : World) : Prop where
  sound : Sound w.redis
  job : ∀ id job, w.redis.jobs id = some job → job.Closed
  attempt : ∀ id att, w.redis.attempts id = some att → att.Closed w.clock

namespace Closed

variable {w : World} {r' : Redis} {now : Nat}

/-- Closed records stay closed where nothing is written, and the rest is what is written. -/
theorem write (C : Closed w) (le : w.clock ≤ now) (sound : Sound r')
    (jobs : r'.jobs = w.redis.jobs ∨
      ∃ k j, r'.jobs = update w.redis.jobs k (some j) ∧ j.Closed)
    (attempts : r'.attempts = w.redis.attempts ∨
      ∃ k a, r'.attempts = update w.redis.attempts k (some a) ∧ a.Closed now) :
    Closed ⟨r', now⟩ := by
  refine ⟨sound, fun id job h => ?_, fun id att h => ?_⟩
  · rcases jobs with hj | ⟨k, j, hj, closed⟩
    · exact C.job id job (hj ▸ h)
    · simp only [hj, update_eq_some] at h
      rcases h with ⟨-, rfl⟩ | ⟨-, h⟩
      · exact closed
      · exact C.job id job h
  · rcases attempts with ha | ⟨k, a, ha, closed⟩
    · exact (C.attempt id att (ha ▸ h)).later le
    · simp only [ha, update_eq_some] at h
      rcases h with ⟨-, rfl⟩ | ⟨-, h⟩
      · exact closed
      · exact (C.attempt id att h).later le

theorem effect (C : Closed w) (le : w.clock ≤ now) (sound : Sound r') {c : Call}
    (e : Effect now w.redis r' c) (passed : c.Passed) (keeps : Keeps w (now, c)) :
    Closed ⟨r', now⟩ := by
  have encJob {id : String} {job : JobRecordV2} (h : w.redis.jobs id = some job) :=
    C.sound.encoded.job h
  have encAtt {id : String} {att : AttemptRecordV1} (h : w.redis.attempts id = some att) :=
    C.sound.encoded.attempt h
  cases e with
  | frame jobs attempts => exact C.write le sound (.inl jobs) (.inl attempts)
  | created entry accepted fresh jobs attempts =>
    obtain ⟨scope, input, jobId, digest, date, dated, rfl, -⟩ := passed
    exact C.write le sound (.inr ⟨_, _, jobs, .created accepted keeps dated entry⟩) (.inl attempts)
  | claimed job job_at jobId workspace target isNew queued live fresh unfenced jobs attempts =>
    obtain ⟨hatt, hdev, htok, hbind⟩ := passed
    have J := C.job _ _ job_at
    rw [encodeJob_claimed (encJob job_at)] at jobs
    exact C.write le sound (.inr ⟨_, _, jobs, J.claimed queued hatt⟩) (.inr ⟨_, _, attempts,
      .new J hatt hdev htok (hbind.resolve_left (by simp [isNew])) keeps⟩)
  | started job att owns attemptId active phase jobs attempts =>
    rw [encodeAttempt_started (encAtt owns.attempt_at)] at attempts
    exact C.write le sound (.inl jobs)
      (.inr ⟨_, _, attempts, (C.attempt _ _ owns.attempt_at).start phase le keeps⟩)
  | @reported p rep job att owns attemptId active phase jobs attempts =>
    have live : att.phase ≠ .terminal := by
      rcases phase with ⟨hp, -⟩ | hp <;> simp [hp]
    obtain ⟨shows_now, finished, duration, empty⟩ :=
      keeps att owns.attempt_at owns.device owns.token live
    have A := C.attempt _ _ owns.attempt_at
    have schema := persisted_of_schema passed finished.safe duration shows_now.safe
    have stored : Cjson.encodeAttempt (reportedAttempt now att rep) = withReport att
        (Cjson.encodeReport { toExecutionReport := rep, receivedAtMs := now }) :=
      encodeAttempt_withReport (encAtt owns.attempt_at) _
    rw [encodeJob_reported (encJob owns.job_at)] at jobs
    rw [stored] at attempts
    refine C.write le sound (.inr ⟨_, _, jobs, (C.job _ _ owns.job_at).reported active owns.latest⟩)
      (.inr ⟨_, _, attempts, ?_⟩)
    refine A.report_in le schema live (fun hd => ?_) (fun hd => ?_) finished shows_now
    · rcases phase with ⟨-, h⟩ | hp
      · exact absurd (hd.symm.trans h) (by decide)
      · exact hp
    · exact empty hd
  | @cancelledActive p job att job_at active attempt_at expected jobId latest phase jobs attempts =>
    obtain ⟨hdev, hrec, userId, huser, hreason⟩ := passed
    have shows_now : Shows now := keeps
    have A := C.attempt _ _ attempt_at
    have live : att.phase ≠ .terminal := by
      rcases phase with hp | ⟨hp, -⟩ <;> simp [hp]
    have stored : Cjson.encodeAttempt (cancelledAttempt now att p) =
        withReport att (Cjson.encodeReport (cancelReport now att p.cancelReceiptSha256)) :=
      encodeAttempt_withReport (encAtt attempt_at) _
    have duration : (cancelReport now att p.cancelReceiptSha256).durationMs ≤ now := by
      unfold cancelReport
      dsimp only
      split_ifs <;> omega
    have schema := persisted_of_schema (cancelReport_schema now att hrec shows_now.le)
      shows_now.safe ((Cjson.num_mono duration).trans shows_now.safe) shows_now.safe
    rw [encodeJob_cancelled (encJob job_at)] at jobs
    rw [stored] at attempts
    refine C.write le sound (.inr ⟨_, _, jobs, (C.job _ _ job_at).cancelled (by simp [active])
      shows_now hdev (hreason ▸ jsLength_cancelReason huser)⟩) (.inr ⟨_, _, attempts, ?_⟩)
    refine A.report_in le schema live (fun hd => ?_) (fun hd => ?_) shows_now shows_now
    · simpa [Cjson.encodeReport, cancelReport] using hd
    · rcases phase with hp | ⟨hp, -⟩
      · exact (A.accepted.of_claimed hp).2.2
      · simp [Cjson.encodeReport, cancelReport, hp] at hd
  | @cancelledQueued p job job_at queued jobs attempts =>
    obtain ⟨hdev, hrec, userId, huser, hreason⟩ := passed
    have shows_now : Shows now := keeps
    rw [encodeJob_cancelled (encJob job_at)] at jobs
    exact C.write le sound (.inr ⟨_, _, jobs, (C.job _ _ job_at).cancelled (by simp [queued])
      shows_now hdev (hreason ▸ jsLength_cancelReason huser)⟩) (.inl attempts)
  | @recorded p result mode job att owns jobs attempts =>
    obtain ⟨schema, hid⟩ := passed
    obtain ⟨shows_now, holds⟩ := keeps
    have A := C.attempt _ _ owns.attempt_at
    have stored : Cjson.encodeAttempt (recordedAttempt now att result) =
        withResult att (Cjson.encodeResult { result with receivedAtMs := now }) :=
      encodeAttempt_withResult (encAtt owns.attempt_at) _
    rw [stored] at attempts
    refine C.write le sound (.inl jobs) (.inr ⟨_, _, attempts, ?_⟩)
    refine A.result_in le ?_ ?_ shows_now ?_
    · simp only [persistedJobResultSchema, safeIntegerGuard, Guard.all_cons, Guard.all_nil,
        and_true] at schema
      obtain ⟨target, attemptId, payload, resource, commit, text, -⟩ := schema
      simp only [persistedJobResultSchema, safeIntegerGuard, Guard.all_cons, Guard.all_nil,
        and_true]
      exact ⟨target, attemptId, payload, resource, commit, text, decide_eq_true shows_now.safe⟩
    · show result.attemptId = att.attemptId
      rw [hid, C.sound.linkage.attempt_key owns.attempt_at]
    · rcases holds att owns.attempt_at owns.device owns.token with hp | ⟨rep, hrep, hd⟩
      · exact .inl hp
      · refine .inr ⟨?_, rep, hrep, hd⟩
        have hst := C.sound.linkage.staged owns.attempt_at
        unfold AttemptRecordV1.Staged at hst
        cases hp : att.phase <;> simp_all

theorem step {w' : World} {a : Nat × Call} (C : Closed w) (h : closing.Step w a w') : Closed w' := by
  obtain ⟨⟨passed, keeps⟩, le, rfl⟩ := h
  have sound : Sound (exec a.1 w.redis a.2) := C.sound.scripts_step (a := a) rfl
  exact C.effect le sound (exec_effect _ _ _) passed keeps

end Closed

theorem closed_reachable {w : World} (h : closing.Reachable w) : Closed w := by
  refine h.inv ?_ Closed.step
  intro w (empty : w.redis = Redis.empty)
  refine ⟨empty ▸ ⟨Linkage.empty, Encoded.empty⟩, fun id job h => ?_, fun id att h => ?_⟩
  · simp [empty, Redis.empty] at h
  · simp [empty, Redis.empty] at h

end Ceo.Jobs
