import Ceo.Jobs.Immutable

/-!
# A report that is sent again

The script answers the owner's report on a terminal attempt by comparing it
with the stored one, which has been through `cjson.encode`. The stored report
stays, so the answer depends only on the numbers the encoder keeps.
-/

namespace Ceo.Jobs

open Ceo.Lib Function

/-- Once accepted and stored, the report is answered as a replay, whatever is run in between. -/
def Replays (rep : ExecutionReport) : Prop :=
  ∀ r, coordinated.Reachable r → ∀ now p t, (reportJob now p rep r).1 = .ok (.reported t) →
    ∀ l r', coordinated.Run (reportJob now p rep r).2 l r' → ∀ now',
      (reportJob now' p rep r').1 = .ok (.replayed now')

/-- Both times survive the encoder. -/
def ExactTimes (rep : ExecutionReport) : Prop :=
  Cjson.num rep.finishedAtMs = rep.finishedAtMs ∧ Cjson.num rep.durationMs = rep.durationMs

instance (rep : ExecutionReport) : Decidable (ExactTimes rep) := by
  unfold ExactTimes
  infer_instance

theorem reportJob_eq (now : Nat) (p : AttemptParams) (rep : ExecutionReport) (r : Redis) :
    reportJob now p rep r =
      ((v2ReportJobScript now p.keys p.argv rep r).1.mapError reportError,
        (v2ReportJobScript now p.keys p.argv rep r).2) := by
  unfold reportJob
  rcases v2ReportJobScript now p.keys p.argv rep r with ⟨_ | _, _⟩ <;> rfl

theorem reportJob_ok_iff {now : Nat} {p : AttemptParams} {rep : ExecutionReport} {r : Redis}
    {reply : ReportReply} : (reportJob now p rep r).1 = .ok reply ↔
      (v2ReportJobScript now p.keys p.argv rep r).1 = .ok reply := by
  rw [reportJob_eq]
  cases (v2ReportJobScript now p.keys p.argv rep r).1 with
  | error e => exact ⟨fun h => (by cases h), fun h => (by cases h)⟩
  | ok x => exact ⟨fun h => (by cases h; rfl), fun h => (by cases h; rfl)⟩

/-- What the script has found when it writes a report. -/
structure Accepted (r : Redis) (p : AttemptParams) (job : JobRecordV2) (att : AttemptRecordV1) :
    Prop where
  job_at : r.jobs p.jobId = some job
  attempt_at : r.attempts p.attemptId = some att
  shape : attemptShapeOk att = true
  latest : job.latestAttemptId = some p.attemptId
  identity : identityMatches att job p.argv = true

theorem script_reported {now t : Nat} {p : AttemptParams} {rep : ExecutionReport} {r : Redis}
    (h : (v2ReportJobScript now p.keys p.argv rep r).1 = .ok (.reported t)) :
    ∃ job att, Accepted r p job att ∧
      (v2ReportJobScript now p.keys p.argv rep r).2 =
        (r.setAttempt p.attemptId (reportedAttempt now att rep)).setJob p.jobId (reportedJob job) := by
  unfold v2ReportJobScript at h ⊢
  cases hj : r.jobs p.keys.job with
  | none =>
    rw [hj] at h
    cases h
  | some job =>
  cases ha : r.attempts p.keys.attempt with
  | none =>
    rw [hj, ha] at h
    cases h
  | some att =>
  rw [hj, ha] at h
  dsimp only at h ⊢
  by_cases hs : attemptShapeOk att = true
  case neg => simp [hs] at h
  by_cases hl : job.latestAttemptId = some p.argv.attemptId
  case neg => simp [hs, hl] at h
  by_cases hst : job.status ≠ .active ∧ job.status ≠ .terminal
  case pos => simp [hs, hl, hst] at h
  by_cases hid : identityMatches att job p.argv = true
  case neg => simp [hs, hl, hst, hid] at h
  cases hinv : reportInvariants rep with
  | error e => simp [hs, hl, hst, hid, hinv] at h
  | ok _ =>
  by_cases hp : att.phase = .terminal
  case pos =>
    simp only [hs, hl, hst, hid, hinv, hp] at h
    cases har : att.report <;> simp [reportReplay, har] at h
    split_ifs at h
    cases h
  cases ht : reportTransition job att rep with
  | some e => simp [hs, hl, hst, hid, hinv, hp, ht] at h
  | none =>
    refine ⟨job, att, ⟨hj, ha, hs, hl, hid⟩, ?_⟩
    simp [hs, hl, hst, hid, hp, reportedAttempt, reportedJob, AttemptParams.keys]

/-- The owner's report on a terminal attempt is compared with the stored one. -/
theorem script_terminal {now : Nat} {p : AttemptParams} {rep : ExecutionReport} {r : Redis}
    {job : JobRecordV2} {att : AttemptRecordV1} {ar : PersistedExecutionReport}
    (a : Accepted r p job att) (hs : job.status = .terminal) (hp : att.phase = .terminal)
    (har : att.report = some ar) (ok : Guard.All (executionReportSchema rep)) :
    (v2ReportJobScript now p.keys p.argv rep r).1 =
      if ar.toExecutionReport = rep then .ok (.replayed now) else .error .reportConflict := by
  have hsem : semMatch ar rep = decide (ar.toExecutionReport = rep) := by
    rw [Bool.eq_iff_iff, semMatch_iff, decide_eq_true_iff]
  unfold v2ReportJobScript
  simp only [show r.jobs p.keys.job = some job from a.job_at,
    show r.attempts p.keys.attempt = some att from a.attempt_at]
  simp only [a.shape, show job.latestAttemptId = some p.argv.attemptId from a.latest, hs, a.identity,
    reportInvariants_of_schema ok, hp, har, reportReplay, hsem]
  by_cases h : ar.toExecutionReport = rep <;> simp [h]

theorem encodeReport_eq_iff {rep : ExecutionReport} (ok : Guard.All (executionReportSchema rep))
    (now : Nat) :
    (Cjson.encodeReport { toExecutionReport := rep, receivedAtMs := now }).toExecutionReport = rep ↔
      ExactTimes rep := by
  have hver : Cjson.num rep.schemaVersion = rep.schemaVersion := by
    simp only [executionReportSchema, reportFields, Guard.all_append, Guard.all_cons,
      beq_iff_eq] at ok
    rw [ok.1.1.1.1.1]
    exact Cjson.num_of_lt (by decide)
  obtain ⟨v, s, b, d, f, u, x, c, e⟩ := rep
  simp only [Cjson.encodeReport, ExactTimes, ExecutionReport.mk.injEq, true_and, and_true]
  rw [and_iff_right hver]

/-- A report that was stored is answered as a replay exactly when its times survive the encoder. -/
theorem resend {now now' t : Nat} {p : AttemptParams} {rep : ExecutionReport} {r r' : Redis}
    (ok : Guard.All (executionReportSchema rep))
    (h : (reportJob now p rep r).1 = .ok (.reported t)) (hs : Settled (reportJob now p rep r).2 r') :
    (reportJob now' p rep r').1 = .ok (.replayed now') ↔ ExactTimes rep := by
  obtain ⟨job, att, a, hstore⟩ := script_reported (reportJob_ok_iff.1 h)
  rw [reportJob_eq, hstore] at hs
  obtain ⟨hjob, hatt⟩ := hs p.jobId (Cjson.encodeJob (reportedJob job)) (by simp [Redis.setJob]) rfl
  obtain ⟨att', hatt', hsame⟩ := hatt p.attemptId
    (Cjson.encodeAttempt (reportedAttempt now att rep)) a.latest
    (by simp [Redis.setJob, Redis.setAttempt])
  have shape := a.shape
  have accepted : Accepted r' p (Cjson.encodeJob (reportedJob job)) att' := by
    refine ⟨hjob, hatt', ?_, a.latest, ?_⟩
    · rw [hsame]
      simp only [attemptShapeOk, Bool.and_eq_true, beq_iff_eq] at shape ⊢
      obtain ⟨⟨⟨⟨hv, hb⟩, ht⟩, -⟩, -⟩ := shape
      refine ⟨⟨⟨⟨?_, hb⟩, ht⟩, rfl⟩, rfl⟩
      show Cjson.num att.schemaVersion = 1
      rw [hv]
      exact Cjson.num_of_lt (by decide)
    · rw [hsame]
      exact a.identity
  have hterm := @script_terminal now' _ rep _ _ _ _ accepted rfl
    (show att'.phase = .terminal by rw [hsame]; rfl)
    (show att'.report = some (Cjson.encodeReport { toExecutionReport := rep, receivedAtMs := now })
      by rw [hsame]; rfl) ok
  rw [← encodeReport_eq_iff ok now, reportJob_ok_iff, hterm]
  by_cases hx : (Cjson.encodeReport
      { toExecutionReport := rep, receivedAtMs := now }).toExecutionReport = rep
  · simp only [hx, if_true]
  · simp only [hx, if_false, reduceCtorEq]

/-! ### a report that is accepted -/

def startedCalls : List (Nat × Call) :=
  claimedCalls ++ [(2500, .start (ownerParams claimedSampleAttempt))]

def startedSampleAttempt : AttemptRecordV1 :=
  { claimedSampleAttempt with phase := .running, startedAtMs := some 2500 }

set_option maxRecDepth 10000 in
theorem replay_started :
    (replay startedCalls).jobs sampleJob.jobId = some claimedSample ∧
      (replay startedCalls).attempts sampleClaim.attemptId = some startedSampleAttempt := by
  decide +kernel

theorem startedCalls_passed : ∀ a ∈ startedCalls, a.2.Passed := by
  intro a ha
  rcases List.mem_append.1 ha with ha | ha
  · exact claimedCalls_passed a ha
  · rw [List.mem_singleton.1 ha]
    trivial

/-- The running attempt's owner may report anything the schema accepts. -/
theorem started_reports {rep : ExecutionReport} (ok : Guard.All (executionReportSchema rep))
    (now : Nat) :
    (reportJob now (ownerParams claimedSampleAttempt) rep (replay startedCalls)).1 =
      .ok (.reported now) := by
  obtain ⟨hj, ha⟩ := replay_started
  have hid : identityMatches startedSampleAttempt claimedSample
      (ownerParams claimedSampleAttempt).argv = true := by decide +kernel
  have hshape : attemptShapeOk startedSampleAttempt = true := by decide +kernel
  have hgo : reportTransition claimedSample startedSampleAttempt rep = none := by
    simp [reportTransition, claimedSample, startedSampleAttempt]
  rw [reportJob_ok_iff]
  unfold v2ReportJobScript
  simp only [show (replay startedCalls).jobs (ownerParams claimedSampleAttempt).keys.job =
      some claimedSample from hj,
    show (replay startedCalls).attempts (ownerParams claimedSampleAttempt).keys.attempt =
      some startedSampleAttempt from ha, hid, hshape, hgo, reportInvariants_of_schema ok]
  rfl

theorem replays_iff {rep : ExecutionReport} (ok : Guard.All (executionReportSchema rep)) :
    Replays rep ↔ ExactTimes rep := by
  constructor
  · intro h
    have first := started_reports ok 3000
    have again := h _ (coordinated_replay startedCalls_passed) 3000 _ 3000 first [] _ (.nil _) 4000
    exact (resend ok first (Settled.refl _)).1 again
  · intro exact r hr now p t first l r' run now'
    have S := (sound_of_coordinated hr).scripts_step (a := (now, .report p rep)) rfl
    exact (resend ok first (S.settled_run run.of_guard)).2 exact

end Ceo.Jobs
