import Ceo.Jobs.Listing

/-!
# The operator cancel

One round of `cancelJobForDevice` reads the job and its attempt, then runs the
cancel script with the attempt it read. `Round` lists what a round can come to
when other scripts run between its steps. Three of its cases go wrong: a torn
pair of reads, a job claimed and ended since it was read unclaimed, and a job
that ended by itself since it was read live.
-/

namespace Ceo.Jobs

open Ceo.Lib Function

/-! ### the branches of the cancel script -/

section script

variable {r : Redis} {p : CancelParams} {job : JobRecordV2}

theorem cancelJob_queued (now : Nat) (hj : r.jobs p.jobId = some job) (queued : job.status = .queued)
    (latest : job.latestAttemptId = none) (expected : p.expectedAttemptId = none) :
    cancelJob now p r =
      (.ok ⟨.cancelled, .cancelled, .cancelled, .notStarted, none, now⟩,
        (r.zremTargetQueue p.expectedTargetId job.jobId).setJob p.jobId
          (cancelledJob now job p)) := by
  have h : cancelScript now p r =
      (.ok ⟨.cancelled, .cancelled, .cancelled, .notStarted, none, now⟩,
        (r.zremTargetQueue p.expectedTargetId job.jobId).setJob p.jobId
          (cancelledJob now job p)) := by
    unfold cancelScript v2CancelJobScript
    simp [hj, queued, latest, expected, cancelledJob]
  simp [cancelJob, h]

/-- A job claimed since it was read without an attempt. -/
theorem cancelJob_raced (now : Nat) (hj : r.jobs p.jobId = some job) (active : job.status = .active)
    {attemptId : String} (latest : job.latestAttemptId = some attemptId) (hne : attemptId ≠ "")
    (expected : p.expectedAttemptId = none) : cancelJob now p r = (.error .cancelRace, r) := by
  have h : cancelScript now p r = (.error .cancelRace, r) := by
    unfold cancelScript v2CancelJobScript
    simp [hj, active, latest, expected, hne]
  simp [cancelJob, h, cancelError]

theorem cancelScript_terminal (now : Nat) (hj : r.jobs p.jobId = some job)
    (ended : job.status = .terminal) :
    cancelScript now p r =
      (cancelTerminal now job (r.attempts (cancelAttemptKey p.expectedAttemptId)), r) := by
  unfold cancelScript v2CancelJobScript
  simp [hj, ended]

/-- A job ended with an attempt since it was read without one: the script looks for the
attempt under the key that stands in for none. -/
theorem cancelJob_lost (now : Nat) (hj : r.jobs p.jobId = some job) (ended : job.status = .terminal)
    {attemptId : String} (latest : job.latestAttemptId = some attemptId)
    (expected : p.expectedAttemptId = none) (free : r.attempts "none" = none) :
    cancelJob now p r = (.error (.store (.script .corruptAttemptRecord)), r) := by
  have key : cancelAttemptKey p.expectedAttemptId = "none" := by simp [cancelAttemptKey, expected]
  have h := cancelScript_terminal now hj ended
  rw [key, free] at h
  simp [cancelJob, h, cancelTerminal, latest, cancelError]

theorem cancelJob_unclaimed (now : Nat) (hj : r.jobs p.jobId = some job)
    (ended : job.status = .terminal) (latest : job.latestAttemptId = none)
    (cancel : job.cancel.isSome) :
    cancelJob now p r =
      (.ok ⟨.replayed, .alreadyCancelled, .cancelled, .notStarted, none, now⟩, r) := by
  obtain ⟨c, hc⟩ := Option.isSome_iff_exists.1 cancel
  simp [cancelJob, cancelScript_terminal now hj ended, cancelTerminal, latest, hc]

/-- A job ended with the attempt it was read with. -/
theorem cancelJob_ended (now : Nat) (hj : r.jobs p.jobId = some job) (ended : job.status = .terminal)
    {att : AttemptRecordV1} {report : PersistedExecutionReport} (hl : Latest r job att)
    (phase : att.phase = .terminal) (hrep : att.report = some report)
    (expected : p.expectedAttemptId = some att.attemptId) (hne : att.attemptId ≠ "") :
    ∃ outcome, cancelJob now p r = (.ok outcome, r) ∧
      outcome.executionStatus = report.executionStatus ∧ outcome.result ≠ .cancelled := by
  have key : cancelAttemptKey p.expectedAttemptId = att.attemptId := by
    simp [cancelAttemptKey, expected, hne]
  have h := cancelScript_terminal now hj ended
  rw [key, hl.stored] at h
  by_cases hs : report.executionStatus = .cancelled
  · exact ⟨_, by simp [cancelJob, h, cancelTerminal, hl.latest, phase, hrep, hs]; rfl,
      by simp [hs], by simp⟩
  · exact ⟨_, by simp [cancelJob, h, cancelTerminal, hl.latest, phase, hrep, hs]; rfl,
      by simp, by simp⟩

end script

/-! ### the stage of an ended job -/

/-- What a reader makes of a job it read terminal is what the job has ended as. -/
theorem ended_read {atJob atAttempt : Redis} {l : List (Nat × Call)} (L : Linkage atJob)
    (run : scripts.Run atJob l atAttempt) {id : String} {job : JobRecordV2}
    (hj : atJob.jobs id = some job) (hs : job.status = .terminal) {att : Option AttemptRecordV1}
    (ha : attemptOf job atAttempt = .ok att) :
    stageOf atAttempt id =
      .ended job.latestAttemptId ((jobExecutionStatusView job att).getD .cancelled) := by
  have L' := L.run run
  have hend := later_run L run id
  rw [stageOf_some hj, stage_terminal hs] at hend
  rw [hend.of_ended]
  unfold attemptOf at ha
  cases hl : job.latestAttemptId with
  | none =>
    rw [hl] at ha
    cases ha
    simp [latestAttempt, hl]
  | some aid =>
    obtain ⟨att', later, hatt, -, -, hlater, hlat⟩ := attempt_behind L run hj hl
    rw [hl] at ha
    dsimp only at ha
    obtain rfl : some att' = att := by
      rcases getAttempt_of_some hatt with ⟨h, -⟩ | ⟨⟨m, h⟩, -⟩
      · rw [h] at ha
        exact Except.ok.inj ha
      · rw [h] at ha
        cases ha
    -- the status of the end is read off the report, which stands in both stores
    have hter := status_of_ended hlater hend.of_ended
    have hst := L'.staged hlat.stored
    simp only [AttemptRecordV1.Staged, L'.terminal_phase hlater hter hlat] at hst
    obtain ⟨report, hrep⟩ := Option.ne_none_iff_exists'.1 hst
    have hof := hend.of_ended
    rw [stageOf_some hlater, stage_terminal hter, hlat.latestAttempt] at hof
    injection hof with _ hof
    rw [← hl, ← hof]
    simp [jobExecutionStatusView, hrep]

/-! ### one round -/

section round

variable (control : Control) (sha256 : String → String) (deviceId userId jobId : String)

/-- The round reads the job active with this attempt, which has not ended. -/
structure ReadsLive (x : CancelReads) (job : JobRecordV2) (att : AttemptRecordV1) : Prop where
  reads : CancelReadsJob control deviceId jobId x.atJob job
  active : job.status = .active
  latest : job.latestAttemptId = some att.attemptId
  read : attemptOf job x.atAttempt = .ok (some att)
  phase : att.phase ≠ .terminal

/-- The job, read unclaimed, is claimed and live when the script runs. -/
structure Raced (x : CancelReads) (job later : JobRecordV2) : Prop where
  reads : CancelReadsJob control deviceId jobId x.atJob job
  queued : job.status = .queued
  stored : x.atScript.jobs jobId = some later
  active : later.status = .active

/-- What a round comes to. -/
inductive Round (x : CancelReads) : Option (Except V2Error JobCancelResult) → Redis → Prop where
  | stopped {e : V2Error} :
    (¬∃ job, CancelReadsJob control deviceId jobId x.atJob job) →
    (e = .jobNotFound ∨ ∃ m, e = .schema m) → Round x (some (.error e)) x.atScript
  | torn {job : JobRecordV2} :
    CancelReadsJob control deviceId jobId x.atJob job → TornRead job x.atAttempt →
    Round x (some (.error (.store .corruptJobState))) x.atScript
  | unreadable {job : JobRecordV2} {m : String} :
    CancelReadsJob control deviceId jobId x.atJob job → job.status ≠ .queued →
    ¬TornRead job x.atAttempt → attemptOf job x.atAttempt = .error (.schema m) →
    Round x (some (.error (.schema m))) x.atScript
  | ended {job : JobRecordV2} {att : Option AttemptRecordV1} :
    CancelReadsJob control deviceId jobId x.atJob job → job.status = .terminal →
    stageOf x.atScript jobId =
      .ended job.latestAttemptId ((jobExecutionStatusView job att).getD .cancelled) →
    Round x (some (.ok (cancelEnded job att))) x.atScript
  /-- A claim came between the reads and the script. -/
  | raced {job later : JobRecordV2} : Raced control deviceId jobId x job later →
    Round x none x.atScript
  /-- A claim and the end of its attempt did. -/
  | lost {job : JobRecordV2} {attemptId : String} {s : ExecutionStatus} :
    CancelReadsJob control deviceId jobId x.atJob job → job.status = .queued →
    stageOf x.atScript jobId = .ended (some attemptId) s →
    Round x (some (.error (.store (.script .corruptAttemptRecord)))) x.atScript
  /-- Another cancel of the unclaimed job did. -/
  | unclaimed {job : JobRecordV2} {state : HostJobState} {outcome : JobCancelOutcome} :
    CancelReadsJob control deviceId jobId x.atJob job → job.status = .queued →
    stageOf x.atScript jobId = .ended none .cancelled → outcome.executionStatus = .cancelled →
    outcome.result ≠ .cancelled →
    Round x (some (.ok (cancelAnswered job state outcome))) x.atScript
  /-- The end of the attempt did. -/
  | overtaken {job : JobRecordV2} {att : AttemptRecordV1} {state : HostJobState}
    {outcome : JobCancelOutcome} : ReadsLive control deviceId jobId x job att →
    stageOf x.atScript jobId = .ended (some att.attemptId) outcome.executionStatus →
    outcome.result ≠ .cancelled →
    Round x (some (.ok (cancelAnswered job state outcome))) x.atScript
  | cancelled {job : JobRecordV2} {state : HostJobState} {outcome : JobCancelOutcome}
    {r : Redis} : CancelReadsJob control deviceId jobId x.atJob job → job.status ≠ .terminal →
    ¬TornRead job x.atAttempt → (∀ later, ¬Raced control deviceId jobId x job later) →
    (∀ a s, stageOf x.atScript jobId ≠ .ended a s) → outcome.result = .cancelled →
    outcome.executionStatus = .cancelled → stageOf r jobId = .ended job.latestAttemptId .cancelled →
    Round x (some (.ok (cancelAnswered job state outcome))) r

variable {control sha256 deviceId userId jobId}

theorem not_ended_of_live {r : Redis} {job : JobRecordV2} (hj : r.jobs jobId = some job)
    (hs : job.status ≠ .terminal) (a : Option String) (s : ExecutionStatus) :
    stageOf r jobId ≠ .ended a s :=
  fun h => hs (status_of_ended hj h)

theorem stage_cancelledQueued {r : Redis} {job : JobRecordV2} (now : Nat) (p : CancelParams)
    (latest : job.latestAttemptId = none) :
    stageOf ((r.zremTargetQueue p.expectedTargetId job.jobId).setJob jobId (cancelledJob now job p))
      jobId = .ended none .cancelled := by
  have hj : ((r.zremTargetQueue p.expectedTargetId job.jobId).setJob jobId
      (cancelledJob now job p)).jobs jobId = some (Cjson.encodeJob (cancelledJob now job p)) := by
    simp
  rw [stageOf_some hj, stage_terminal (by simp [cancelledJob])]
  simp [latestAttempt, jobExecutionStatusView, cancelledJob, latest]

theorem stage_cancelledActive {r : Redis} {job : JobRecordV2} {att : AttemptRecordV1} (now : Nat)
    (p : CancelParams) (hl : Latest r job att) :
    stageOf ((r.setAttempt att.attemptId (cancelledAttempt now att p)).setJob jobId
      (cancelledJob now job p)) jobId = .ended (some att.attemptId) .cancelled := by
  have hj : ((r.setAttempt att.attemptId (cancelledAttempt now att p)).setJob jobId
      (cancelledJob now job p)).jobs jobId = some (Cjson.encodeJob (cancelledJob now job p)) := by
    simp
  rw [stageOf_some hj, stage_terminal (by simp [cancelledJob])]
  simp [latestAttempt, jobExecutionStatusView, cancelledJob, hl.latest, encodeAttempt_report,
    cancelledAttempt, cancelReport, Cjson.encodeReport]

theorem cancelPreRead_ok {x : CancelReads} {job : JobRecordV2}
    (h : CancelReadsJob control deviceId jobId x.atJob job) {att : Option AttemptRecordV1}
    {state : HostJobState} (ha : attemptOf job x.atAttempt = .ok att)
    (hd : deriveHostJobState job att x.nowMs = .ok state) :
    cancelPreRead control deviceId jobId x.nowMs x.atJob x.atAttempt = .ok (job, att, state) := by
  rw [cancelPreRead_of_job h]
  simp [ha, hd, bind, Except.bind, pure, Except.pure]

/-- The stores of a round hang together. -/
structure RoundReads (x : CancelReads) : Prop where
  linkage : Linkage x.atJob
  ids : IdsOk x.atJob
  betweenReads : ∃ l, coordinated.Run x.atJob l x.atAttempt
  beforeScript : ∃ l, coordinated.Run x.atAttempt l x.atScript

theorem RoundReads.toScript {x : CancelReads} (R : RoundReads x) :
    ∃ l, coordinated.Run x.atJob l x.atScript := by
  obtain ⟨l, h⟩ := R.betweenReads
  obtain ⟨m, h'⟩ := R.beforeScript
  exact ⟨l ++ m, h.trans h'⟩

theorem attemptId_ne_empty {r : Redis} (L : Linkage r) (I : IdsOk r) {id : String}
    {att : AttemptRecordV1} (h : r.attempts id = some att) : id ≠ "" := by
  rintro rfl
  have hid := (I _ _ h).attemptId
  rw [L.attempt_key h] at hid
  exact absurd hid (by decide)

section script

variable {x : CancelReads} {job : JobRecordV2} {att : Option AttemptRecordV1}
  {state : HostJobState}

/-- The script on a job that was read unclaimed. -/
theorem round_queued (R : RoundReads x) (hjob : CancelReadsJob control deviceId jobId x.atJob job)
    (hs : job.status = .queued) (whole : ¬TornRead job x.atAttempt)
    (hpre : cancelPreRead control deviceId jobId x.nowMs x.atJob x.atAttempt =
      .ok (job, att, state)) (live : state ≠ .terminal) :
    Round control deviceId jobId x (cancelRound control sha256 deviceId userId jobId x).1
      (cancelRound control sha256 deviceId userId jobId x).2 := by
  obtain rfl : job.jobId = jobId := R.linkage.job_key hjob.stored
  obtain ⟨l, run⟩ := R.toScript
  have L := R.linkage.run (scripts_of_coordinated run)
  have I := R.ids.run run
  have expected : (cancelParams sha256 deviceId userId job).expectedAttemptId = none := by
    show job.latestAttemptId = none
    have link := R.linkage.linked hjob.stored
    simpa only [Linked, hs] using link
  obtain ⟨later, hl, -, -, -⟩ := keepsIds_run (scripts_of_coordinated run) _ _ hjob.stored
  have link := L.linked hl
  cases hst : later.status with
  | preparing => simp [Linked, hst] at link
  | queued =>
    have latest : later.latestAttemptId = none := by simpa only [Linked, hst] using link
    have hc := cancelJob_queued (p := cancelParams sha256 deviceId userId job) x.scriptTime hl hst
      latest expected
    simp only [cancelRound, hpre, live, if_false, hc]
    have calm (j : JobRecordV2) : ¬Raced control deviceId job.jobId x job j := by
      intro raced
      obtain rfl := Option.some.inj (hl.symm.trans raced.stored)
      exact absurd (hst.symm.trans raced.active) (by decide)
    refine .cancelled hjob (by simp [hs]) whole calm (not_ended_of_live hl (by simp [hst])) rfl rfl ?_
    rw [show job.latestAttemptId = none from expected]
    exact stage_cancelledQueued _ _ latest
  | active =>
    simp only [Linked, hst] at link
    obtain ⟨att', hatt, -⟩ := link
    have hc := cancelJob_raced (p := cancelParams sha256 deviceId userId job) x.scriptTime hl hst
      hatt.latest (attemptId_ne_empty L I hatt.stored) expected
    simp only [cancelRound, hpre, live, if_false, hc]
    exact .raced ⟨hjob, hs, hl, hst⟩
  | terminal =>
    simp only [Linked, hst] at link
    rcases link with ⟨att', hatt, -⟩ | ⟨latest, cancel⟩
    · have hc := cancelJob_lost (p := cancelParams sha256 deviceId userId job) x.scriptTime hl hst
        hatt.latest expected (I.none_free L)
      simp only [cancelRound, hpre, live, if_false, hc]
      have stage := stageOf_some hl
      rw [stage_terminal hst, hatt.latest] at stage
      exact .lost hjob hs stage
    · have hc := cancelJob_unclaimed (p := cancelParams sha256 deviceId userId job) x.scriptTime hl
        hst latest cancel
      simp only [cancelRound, hpre, live, if_false, hc]
      refine .unclaimed hjob hs ?_ rfl (by simp)
      rw [stageOf_some hl, stage_terminal hst, latest]
      simp [latestAttempt, latest, jobExecutionStatusView, cancel]

/-- The script on a job that was read claimed or running. -/
theorem round_active (R : RoundReads x) (hjob : CancelReadsJob control deviceId jobId x.atJob job)
    (hs : job.status = .active) (whole : ¬TornRead job x.atAttempt)
    (ha : attemptOf job x.atAttempt = .ok att)
    (hpre : cancelPreRead control deviceId jobId x.nowMs x.atJob x.atAttempt =
      .ok (job, att, state)) (live : state ≠ .terminal) :
    Round control deviceId jobId x (cancelRound control sha256 deviceId userId jobId x).1
      (cancelRound control sha256 deviceId userId jobId x).2 := by
  obtain rfl : job.jobId = jobId := R.linkage.job_key hjob.stored
  obtain ⟨l, run⟩ := R.toScript
  obtain ⟨m, between⟩ := R.betweenReads
  have L := R.linkage.run (scripts_of_coordinated run)
  have I := R.ids.run run
  have link := R.linkage.linked hjob.stored
  simp only [Linked, hs] at link
  obtain ⟨att0, hatt0, -⟩ := link
  have latest := hatt0.latest
  -- the attempt the round read
  obtain ⟨read, -, hread, hid, -, -, -⟩ :=
    attempt_behind R.linkage (scripts_of_coordinated between) hjob.stored latest
  have hget : getAttempt x.atAttempt att0.attemptId = .ok att := by
    simpa only [attemptOf, latest] using ha
  have hok : att = some read ∧ read.Accepted := by
    rcases getAttempt_of_some hread with ⟨h, hacc⟩ | ⟨⟨_, h⟩, -⟩
    · rw [h] at hget
      exact ⟨(Except.ok.inj hget).symm, hacc⟩
    · rw [h] at hget
      cases hget
  obtain ⟨rfl, hacc⟩ := hok
  have reads : ReadsLive control deviceId job.jobId x job read :=
    ⟨hjob, hs, hid ▸ latest, ha,
      fun hp => whole ⟨hs, att0.attemptId, read, latest, hread, hacc, hp⟩⟩
  -- the same attempt is behind the job when the script runs
  obtain ⟨now, later, -, hnow, -, hl, hlat⟩ :=
    attempt_behind R.linkage (scripts_of_coordinated run) hjob.stored latest
  have hne := attemptId_ne_empty L I hlat.stored
  have expected : (cancelParams sha256 deviceId userId job).expectedAttemptId =
      some now.attemptId := by
    rw [hnow]
    exact latest
  cases hst : later.status with
  | preparing =>
    have link := L.linked hl
    simp [Linked, hst] at link
  | queued =>
    have link := L.linked hl
    simp [Linked, hst, hlat.latest] at link
  | active =>
    have hc := cancelJob_active (p := cancelParams sha256 deviceId userId job) L x.scriptTime hl hst
      hlat expected hne
    simp only [cancelRound, hpre, live, if_false, hc]
    have calm (j : JobRecordV2) : ¬Raced control deviceId job.jobId x job j :=
      fun raced => absurd (hs.symm.trans raced.queued) (by decide)
    refine .cancelled hjob (by simp [hs]) whole calm (not_ended_of_live hl (by simp [hst])) rfl rfl ?_
    rw [latest, ← hnow]
    exact stage_cancelledActive _ _ hlat
  | terminal =>
    have phase := L.terminal_phase hl hst hlat
    have hstaged := L.staged hlat.stored
    simp only [AttemptRecordV1.Staged, phase] at hstaged
    obtain ⟨report, hrep⟩ := Option.ne_none_iff_exists'.1 hstaged
    obtain ⟨outcome, hc, hout, hres⟩ := cancelJob_ended
      (p := cancelParams sha256 deviceId userId job) x.scriptTime hl hst hlat phase hrep expected hne
    simp only [cancelRound, hpre, live, if_false, hc]
    refine .overtaken reads ?_ hres
    rw [stageOf_some hl, stage_terminal hst, hlat.latestAttempt, hlat.latest, hnow, hid, hout]
    simp [jobExecutionStatusView, hrep]

end script

/-- Every round of the cancel is one of the cases of `Round`. -/
theorem round_spec {x : CancelReads} (R : RoundReads x) :
    Round control deviceId jobId x (cancelRound control sha256 deviceId userId jobId x).1
      (cancelRound control sha256 deviceId userId jobId x).2 := by
  by_cases hr : ∃ job, CancelReadsJob control deviceId jobId x.atJob job
  swap
  · obtain ⟨e, he, hkind⟩ := cancelPreRead_stops hr x.nowMs x.atAttempt
    simp only [cancelRound, he]
    exact .stopped hr hkind
  obtain ⟨job, hjob⟩ := hr
  obtain ⟨l, between⟩ := R.betweenReads
  obtain ⟨m, before⟩ := R.beforeScript
  have run := scripts_of_coordinated between
  rcases reads_spec R.linkage run hjob.stored x.nowMs with
    ⟨torn, att, ha, hd⟩ | ⟨whole, ⟨m, hm⟩ | ⟨att, state, ha, hd, -⟩⟩
  · have hpre : cancelPreRead control deviceId jobId x.nowMs x.atJob x.atAttempt =
        .error (.store .corruptJobState) := by
      rw [cancelPreRead_of_job hjob]
      simp [ha, hd, bind, Except.bind]
    simp only [cancelRound, hpre]
    exact .torn hjob torn
  · have hpre : cancelPreRead control deviceId jobId x.nowMs x.atJob x.atAttempt =
        .error (.schema m) := by
      rw [cancelPreRead_of_job hjob]
      simp [hm, bind, Except.bind]
    have claimed : job.status ≠ .queued := by
      intro hs
      have link := R.linkage.linked hjob.stored
      simp only [Linked, hs] at link
      simp [attemptOf, link] at hm
    simp only [cancelRound, hpre]
    exact .unreadable hjob claimed whole hm
  · have hpre := cancelPreRead_ok hjob ha hd
    have hter := derive_terminal hd
    cases hs : job.status with
    | preparing =>
      have link := R.linkage.linked hjob.stored
      simp [Linked, hs] at link
    | queued => exact round_queued R hjob hs whole hpre (by simp [hter, hs])
    | active => exact round_active R hjob hs whole ha hpre (by simp [hter, hs])
    | terminal =>
      simp only [cancelRound, hpre, hter.2 hs, if_true]
      refine .ended hjob hs ?_
      have hstay := later_run (R.linkage.run run) (scripts_of_coordinated before) jobId
      rw [ended_read R.linkage run hjob.stored hs ha] at hstay
      exact hstay.of_ended

/-! ### what is right and what is wrong with a round -/

variable (jobId) in
/-- The answer is true to what the job has durably ended as. -/
structure Truthful (res : JobCancelResult) (before after : Redis) : Prop where
  status : ∃ a, stageOf after jobId = .ended a res.executionStatus
  cancelled : res.action = .alreadyCancelled ↔ ∃ a, stageOf before jobId = .ended a .cancelled
  otherwise : res.action = .alreadyTerminal ↔
    ∃ a s, stageOf before jobId = .ended a s ∧ s ≠ .cancelled

variable (jobId) in
/-- A round does not blame the records, writes only to cancel, and answers truthfully. -/
structure RoundRight (x : CancelReads) (answer : Option (Except V2Error JobCancelResult))
    (r : Redis) : Prop where
  errors : ∀ e, answer = some (.error e) → e.isCorrupt = false
  writes : r ≠ x.atScript → ∃ res, answer = some (.ok res) ∧ res.action = .cancelled
  truthful : ∀ res, answer = some (.ok res) → Truthful jobId res x.atScript r

variable (control deviceId jobId) in
/-- The ways scripts that come in between make a round go wrong. -/
inductive RoundFails (x : CancelReads) : Prop where
  /-- The job is read active and its attempt, read next, has ended. -/
  | torn {job : JobRecordV2} : CancelReadsJob control deviceId jobId x.atJob job →
    TornRead job x.atAttempt → RoundFails x
  /-- The job is read unclaimed, and has ended with an attempt when the script runs. -/
  | lost {job : JobRecordV2} {attemptId : String} {s : ExecutionStatus} :
    CancelReadsJob control deviceId jobId x.atJob job → job.status = .queued →
    stageOf x.atScript jobId = .ended (some attemptId) s → RoundFails x
  /-- The job is read live, and has ended other than by a cancel when the script runs. -/
  | overtaken {job : JobRecordV2} {att : AttemptRecordV1} {s : ExecutionStatus} :
    ReadsLive control deviceId jobId x job att →
    stageOf x.atScript jobId = .ended (some att.attemptId) s → s ≠ .cancelled → RoundFails x

theorem CancelReadsJob.same {r : Redis} {job job' : JobRecordV2}
    (h : CancelReadsJob control deviceId jobId r job)
    (h' : CancelReadsJob control deviceId jobId r job') : job' = job := by
  have hst := h.stored
  rwa [h'.stored, Option.some.injEq] at hst

/-- What a failing round comes to for the job it read. -/
theorem RoundFails.of_reads {x : CancelReads} {job : JobRecordV2}
    (hf : RoundFails control deviceId jobId x)
    (h : CancelReadsJob control deviceId jobId x.atJob job) :
    TornRead job x.atAttempt ∨
      (job.status = .queued ∧ ∃ a s, stageOf x.atScript jobId = .ended (some a) s) ∨
      ∃ att s, ReadsLive control deviceId jobId x job att ∧
        stageOf x.atScript jobId = .ended (some att.attemptId) s ∧ s ≠ .cancelled := by
  cases hf with
  | torn h' torn =>
    obtain rfl := h.same h'
    exact .inl torn
  | lost h' queued stage =>
    obtain rfl := h.same h'
    exact .inr (.inl ⟨queued, _, _, stage⟩)
  | overtaken live stage hs =>
    obtain rfl := h.same live.reads
    exact .inr (.inr ⟨_, _, live, stage, hs⟩)

theorem ReadsLive.not_torn {x : CancelReads} {job : JobRecordV2} {att : AttemptRecordV1}
    (h : ReadsLive control deviceId jobId x job att) : ¬TornRead job x.atAttempt := by
  rintro ⟨-, aid, att', latest, stored, accepted, phase⟩
  have hread := h.read
  obtain rfl : att.attemptId = aid := Option.some.inj (h.latest.symm.trans latest)
  have hget : getAttempt x.atAttempt att.attemptId = .ok (some att) := by
    simpa only [attemptOf, latest] using hread
  rcases getAttempt_of_some stored with ⟨hok, -⟩ | ⟨-, hrej⟩
  · rw [hok] at hget
    obtain rfl := Option.some.inj (Except.ok.inj hget)
    exact h.phase phase
  · exact hrej accepted

theorem cancelEnded_executionStatus (job : JobRecordV2) (att : Option AttemptRecordV1) :
    (cancelEnded job att).executionStatus = (jobExecutionStatusView job att).getD .cancelled := rfl

theorem cancelEnded_action (job : JobRecordV2) (att : Option AttemptRecordV1) :
    (cancelEnded job att).action =
      if (cancelEnded job att).executionStatus = .cancelled then .alreadyCancelled
      else .alreadyTerminal := rfl

theorem cancelAnswered_action {job : JobRecordV2} {state : HostJobState} {o : JobCancelOutcome} :
    (cancelAnswered job state o).action =
      if o.result = .cancelled then .cancelled else .alreadyCancelled := rfl

/-- **A round is right exactly when it does not fail.** -/
theorem Round.right_iff {x : CancelReads} {answer : Option (Except V2Error JobCancelResult)}
    {r : Redis} (h : Round control deviceId jobId x answer r) :
    RoundRight jobId x answer r ↔ ¬RoundFails control deviceId jobId x := by
  cases h with
  | stopped none hkind =>
    refine ⟨fun _ hf => ?_, fun _ => ⟨?_, fun hw => absurd rfl hw, fun res hres => (by cases hres)⟩⟩
    · cases hf with
      | torn h _ => exact none ⟨_, h⟩
      | lost h _ _ => exact none ⟨_, h⟩
      | overtaken live _ _ => exact none ⟨_, live.reads⟩
    · rintro e ⟨⟩
      rcases hkind with rfl | ⟨m, rfl⟩ <;> rfl
  | torn h torn =>
    refine ⟨fun hr => ?_, fun hn => absurd (.torn h torn) hn⟩
    have hcode := hr.errors _ rfl
    cases hcode
  | unreadable h claimed whole hm =>
    refine ⟨fun _ hf => ?_, fun _ => ⟨?_, fun hw => absurd rfl hw, fun res hres => (by cases hres)⟩⟩
    · rcases hf.of_reads h with torn | ⟨queued, _⟩ | ⟨att, s, live, _⟩
      · exact whole torn
      · exact claimed queued
      · rw [live.read] at hm
        cases hm
    · rintro e ⟨⟩
      rfl
  | @ended job att h hs stage =>
    rw [← cancelEnded_executionStatus] at stage
    refine ⟨fun _ hf => ?_, fun _ => ⟨fun e he => (by cases he), fun hw => absurd rfl hw, ?_⟩⟩
    · rcases hf.of_reads h with torn | ⟨queued, _⟩ | ⟨att, s, live, _⟩
      · exact absurd (hs.symm.trans torn.1) (by decide)
      · exact absurd (hs.symm.trans queued) (by decide)
      · exact absurd (hs.symm.trans live.active) (by decide)
    · rintro res ⟨⟩
      refine ⟨⟨_, stage⟩, ?_, ?_⟩
      · rw [cancelEnded_action, stage]
        by_cases hc : (cancelEnded job att).executionStatus = .cancelled <;> simp [hc]
      · rw [cancelEnded_action, stage]
        by_cases hc : (cancelEnded job att).executionStatus = .cancelled <;> simp [hc]
  | raced raced =>
    obtain ⟨h, queued, stored, active⟩ := raced
    refine ⟨fun _ hf => ?_, fun _ => ⟨fun e he => (by cases he), fun hw => absurd rfl hw,
      fun res hres => (by cases hres)⟩⟩
    rcases hf.of_reads h with torn | ⟨_, a, s, stage⟩ | ⟨att, s, live, _⟩
    · exact absurd (queued.symm.trans torn.1) (by decide)
    · exact not_ended_of_live stored (by simp [active]) _ _ stage
    · exact absurd (queued.symm.trans live.active) (by decide)
  | lost h queued stage =>
    refine ⟨fun hr => ?_, fun hn => absurd (.lost h queued stage) hn⟩
    have hcode := hr.errors _ rfl
    cases hcode
  | @unclaimed job state outcome h queued stage status result =>
    refine ⟨fun _ hf => ?_, fun _ => ⟨fun e he => (by cases he), fun hw => absurd rfl hw, ?_⟩⟩
    · rcases hf.of_reads h with torn | ⟨_, a, s, stage'⟩ | ⟨att, s, live, _⟩
      · exact absurd (queued.symm.trans torn.1) (by decide)
      · rw [stage] at stage'
        cases stage'
      · exact absurd (queued.symm.trans live.active) (by decide)
    · rintro res ⟨⟩
      refine ⟨⟨none, ?_⟩, ?_, ?_⟩
      · rw [stage, ← status]
        rfl
      · simp [cancelAnswered_action, result, stage]
      · simp [cancelAnswered_action, result, stage]
  | @overtaken job att state outcome live stage result =>
    by_cases hc : outcome.executionStatus = .cancelled
    · rw [hc] at stage
      refine ⟨fun _ hf => ?_, fun _ => ⟨fun e he => (by cases he), fun hw => absurd rfl hw, ?_⟩⟩
      · rcases hf.of_reads live.reads with torn | ⟨queued, _⟩ | ⟨att', s, _, stage', hs⟩
        · exact live.not_torn torn
        · exact absurd (queued.symm.trans live.active) (by decide)
        · rw [stage] at stage'
          injection stage' with _ hs'
          exact hs hs'.symm
      · rintro res ⟨⟩
        refine ⟨⟨some att.attemptId, ?_⟩, ?_, ?_⟩
        · rw [stage, ← hc]
          rfl
        · simp [cancelAnswered_action, result, stage]
        · simp [cancelAnswered_action, result, stage]
    · refine ⟨fun hr => ?_, fun hn => absurd (.overtaken live stage hc) hn⟩
      have told := (hr.truthful _ rfl).cancelled.1 (by simp [cancelAnswered_action, result])
      obtain ⟨a, ha⟩ := told
      rw [stage] at ha
      injection ha with _ ha
      exact absurd ha hc
  | @cancelled job state outcome r h hs whole _ live result status stage =>
    refine ⟨fun _ hf => ?_, fun _ => ⟨fun e he => (by cases he), fun _ => ?_, ?_⟩⟩
    · rcases hf.of_reads h with torn | ⟨_, a, s, stage'⟩ | ⟨att, s, _, stage', _⟩
      · exact whole torn
      · exact live _ _ stage'
      · exact live _ _ stage'
    · exact ⟨_, rfl, by simp [cancelAnswered_action, result]⟩
    · rintro res ⟨⟩
      refine ⟨⟨job.latestAttemptId, ?_⟩, ?_, ?_⟩
      · rw [stage, ← status]
        rfl
      · simp [cancelAnswered_action, result, live]
      · simp [cancelAnswered_action, result, live]

/-- A round on a job read unclaimed that has ended with an attempt blames the records. -/
theorem Round.answer_of_lost {x : CancelReads} {answer : Option (Except V2Error JobCancelResult)}
    {r : Redis} (h : Round control deviceId jobId x answer r) {job : JobRecordV2}
    (reads : CancelReadsJob control deviceId jobId x.atJob job) (queued : job.status = .queued)
    {attemptId : String} {s : ExecutionStatus}
    (stage : stageOf x.atScript jobId = .ended (some attemptId) s) :
    answer = some (.error (.store (.script .corruptAttemptRecord))) := by
  cases h with
  | stopped none _ => exact absurd ⟨_, reads⟩ none
  | torn h torn =>
    obtain rfl := reads.same h
    exact absurd (queued.symm.trans torn.1) (by decide)
  | unreadable h claimed _ _ =>
    obtain rfl := reads.same h
    exact absurd queued claimed
  | ended h hs _ =>
    obtain rfl := reads.same h
    exact absurd (queued.symm.trans hs) (by decide)
  | raced raced => exact absurd stage (not_ended_of_live raced.stored (by simp [raced.active]) _ _)
  | lost => rfl
  | unclaimed _ _ stage' _ _ =>
    rw [stage'] at stage
    cases stage
  | overtaken live _ _ =>
    obtain rfl := reads.same live.reads
    exact absurd (queued.symm.trans live.active) (by decide)
  | cancelled _ _ _ _ live _ _ _ => exact absurd stage (live _ _)

/-- A round on a job read live that has ended calls it cancelled, whatever it ended as. -/
theorem Round.answer_of_overtaken {x : CancelReads}
    {answer : Option (Except V2Error JobCancelResult)} {r : Redis}
    (h : Round control deviceId jobId x answer r) {job : JobRecordV2} {att : AttemptRecordV1}
    (live : ReadsLive control deviceId jobId x job att) {s : ExecutionStatus}
    (stage : stageOf x.atScript jobId = .ended (some att.attemptId) s) :
    ∃ res, answer = some (.ok res) ∧ res.action = .alreadyCancelled ∧ res.executionStatus = s := by
  cases h with
  | stopped none _ => exact absurd ⟨_, live.reads⟩ none
  | torn h torn =>
    obtain rfl := live.reads.same h
    exact absurd torn live.not_torn
  | unreadable h _ _ hm =>
    obtain rfl := live.reads.same h
    rw [live.read] at hm
    cases hm
  | ended h hs _ =>
    obtain rfl := live.reads.same h
    exact absurd (hs.symm.trans live.active) (by decide)
  | raced raced => exact absurd stage (not_ended_of_live raced.stored (by simp [raced.active]) _ _)
  | lost h queued _ | unclaimed h queued _ _ _ =>
    obtain rfl := live.reads.same h
    exact absurd (queued.symm.trans live.active) (by decide)
  | overtaken _ stage' result =>
    rw [stage] at stage'
    injection stage' with _ hs
    exact ⟨_, rfl, by simp [cancelAnswered_action, result], hs.symm⟩
  | cancelled _ _ _ _ unended _ _ _ => exact absurd stage (unended _ _)

theorem Round.none_iff {x : CancelReads} {answer : Option (Except V2Error JobCancelResult)}
    {r : Redis} (h : Round control deviceId jobId x answer r) :
    answer = none ↔ ∃ job later, Raced control deviceId jobId x job later := by
  constructor
  · rintro rfl
    cases h with
    | raced raced => exact ⟨_, _, raced⟩
  · rintro ⟨job, later, raced⟩
    have live := not_ended_of_live raced.stored (by simp [raced.active])
    cases h with
    | stopped none _ => exact absurd ⟨_, raced.reads⟩ none
    | torn h torn =>
      obtain rfl := raced.reads.same h
      exact absurd (raced.queued.symm.trans torn.1) (by decide)
    | unreadable h claimed _ _ =>
      obtain rfl := raced.reads.same h
      exact absurd raced.queued claimed
    | ended h hs _ =>
      obtain rfl := raced.reads.same h
      exact absurd (raced.queued.symm.trans hs) (by decide)
    | raced => rfl
    | lost _ _ stage => exact absurd stage (live _ _)
    | unclaimed _ _ stage _ _ => exact absurd stage (live _ _)
    | overtaken _ stage _ => exact absurd stage (live _ _)
    | cancelled h _ _ calm _ _ _ _ =>
      obtain rfl := raced.reads.same h
      exact absurd raced (calm later)

end round

/-! ### the call -/

section call

variable (control : Control) (sha256 : String → String) (deviceId userId jobId : String)

/-- What the rounds of a call meet: one store after another, with calls of the coordinator
in between. -/
structure CallReads (reads : Nat → CancelReads) : Prop where
  linkage : Linkage (reads 0).atJob
  ids : IdsOk (reads 0).atJob
  betweenReads (k : Nat) : ∃ l, coordinated.Run (reads k).atJob l (reads k).atAttempt
  beforeScript (k : Nat) : ∃ l, coordinated.Run (reads k).atAttempt l (reads k).atScript
  nextRound (k : Nat) : ∃ l, coordinated.Run
    (cancelRound control sha256 deviceId userId jobId (reads k)).2 l (reads (k + 1)).atJob

/-- The call gets to round `k`: each round before has lost a race. -/
structure Gets (reads : Nat → CancelReads) (k : Nat) : Prop where
  format : jobIdV2Re jobId = true
  budget : k < jobCancelMaxRaceRetries
  raced : ∀ i < k, (cancelRound control sha256 deviceId userId jobId (reads i)).1 = none

/-- The whole call does not blame the records, writes only to cancel, and answers truthfully
about the store it acted on. -/
structure CancelRight (reads : Nat → CancelReads) : Prop where
  errors : ∀ e, cancelJobForDevice control sha256 deviceId userId jobId reads = .error e →
    e.isCorrupt = false
  writes : ∀ k, Gets control sha256 deviceId userId jobId reads k →
    (cancelRound control sha256 deviceId userId jobId (reads k)).2 ≠ (reads k).atScript →
    ∃ res, cancelJobForDevice control sha256 deviceId userId jobId reads = .ok res ∧
      res.action = .cancelled
  truthful : ∀ res, cancelJobForDevice control sha256 deviceId userId jobId reads = .ok res →
    ∃ k, Gets control sha256 deviceId userId jobId reads k ∧
      (cancelRound control sha256 deviceId userId jobId (reads k)).1 = some (.ok res) ∧
      Truthful jobId res (reads k).atScript
        (cancelRound control sha256 deviceId userId jobId (reads k)).2

variable {control sha256 deviceId userId jobId}

theorem CallReads.first {reads : Nat → CancelReads}
    (C : CallReads control sha256 deviceId userId jobId reads) : RoundReads (reads 0) :=
  ⟨C.linkage, C.ids, C.betweenReads 0, C.beforeScript 0⟩

theorem Round.unchanged {x : CancelReads} {r : Redis}
    (h : Round control deviceId jobId x none r) : r = x.atScript := by
  cases h
  rfl

/-- A lost race leaves the store as it was, so the next round meets it later on. -/
theorem CallReads.second {reads : Nat → CancelReads}
    (C : CallReads control sha256 deviceId userId jobId reads)
    (h : (cancelRound control sha256 deviceId userId jobId (reads 0)).1 = none) :
    RoundReads (reads 1) ∧ ∃ l, coordinated.Run (reads 0).atScript l (reads 1).atJob := by
  obtain ⟨l, toScript⟩ := C.first.toScript
  obtain ⟨m, next⟩ := C.nextRound 0
  have spec : Round control deviceId jobId (reads 0)
      (cancelRound control sha256 deviceId userId jobId (reads 0)).1
      (cancelRound control sha256 deviceId userId jobId (reads 0)).2 := round_spec C.first
  rw [h] at spec
  rw [spec.unchanged] at next
  have run := toScript.trans next
  exact ⟨⟨C.linkage.run (scripts_of_coordinated run), C.ids.run run, C.betweenReads 1,
    C.beforeScript 1⟩, m, next⟩

/-- A race is lost at most once: the job keeps the attempt that won it. -/
theorem CallReads.no_second_race {reads : Nat → CancelReads}
    (C : CallReads control sha256 deviceId userId jobId reads)
    (h : (cancelRound control sha256 deviceId userId jobId (reads 0)).1 = none) :
    (cancelRound control sha256 deviceId userId jobId (reads 1)).1 ≠ none := by
  intro h1
  have spec : Round control deviceId jobId (reads 0)
      (cancelRound control sha256 deviceId userId jobId (reads 0)).1
      (cancelRound control sha256 deviceId userId jobId (reads 0)).2 := round_spec C.first
  obtain ⟨R, m, next⟩ := C.second h
  have spec1 : Round control deviceId jobId (reads 1)
      (cancelRound control sha256 deviceId userId jobId (reads 1)).1
      (cancelRound control sha256 deviceId userId jobId (reads 1)).2 := round_spec R
  obtain ⟨job, later, raced⟩ := spec.none_iff.1 h
  obtain ⟨job1, later1, raced1⟩ := spec1.none_iff.1 h1
  obtain ⟨l, toScript⟩ := C.first.toScript
  have L := C.linkage.run (scripts_of_coordinated toScript)
  have link := L.linked raced.stored
  simp only [Linked, raced.active] at link
  obtain ⟨att, hatt, -⟩ := link
  obtain ⟨job', hj', hl'⟩ :=
    L.keepsLatest_run (scripts_of_coordinated next) _ _ _ raced.stored hatt.latest
  obtain rfl := Option.some.inj (hj'.symm.trans raced1.reads.stored)
  have link1 := R.linkage.linked hj'
  simp [Linked, raced1.queued, hl'] at link1

theorem cancelRounds_eq {reads : Nat → CancelReads} {n i k : Nat}
    {answer : Except V2Error JobCancelResult}
    (before : ∀ j, i ≤ j → j < k →
      (cancelRound control sha256 deviceId userId jobId (reads j)).1 = none)
    (here : (cancelRound control sha256 deviceId userId jobId (reads k)).1 = some answer)
    (from_le : i ≤ k) (budget : k < i + n) :
    cancelRounds control sha256 deviceId userId jobId reads n i = answer := by
  induction n generalizing i with
  | zero => omega
  | succ n ih =>
    unfold cancelRounds
    rcases Nat.lt_or_ge i k with hlt | hge
    · rw [before i (Nat.le_refl i) hlt]
      exact ih (fun j hij hjk => before j (by omega) hjk) (by omega) (by omega)
    · obtain rfl : i = k := by omega
      rw [here]

/-- The call answers what the round it gets to answers. -/
theorem Gets.answer {reads : Nat → CancelReads} {k : Nat}
    (g : Gets control sha256 deviceId userId jobId reads k)
    {answer : Except V2Error JobCancelResult}
    (here : (cancelRound control sha256 deviceId userId jobId (reads k)).1 = some answer) :
    cancelJobForDevice control sha256 deviceId userId jobId reads = answer := by
  unfold cancelJobForDevice
  rw [if_neg (by simp [g.format])]
  exact cancelRounds_eq (fun j _ hjk => g.raced j hjk) here (Nat.zero_le k)
    (by have := g.budget; omega)

/-- The round that answers is the last one. -/
theorem Gets.le {reads : Nat → CancelReads} {i k : Nat}
    (g : Gets control sha256 deviceId userId jobId reads k)
    (here : (cancelRound control sha256 deviceId userId jobId (reads i)).1 ≠ none) : k ≤ i := by
  by_contra hlt
  exact here (g.raced i (by omega))

/-- The call is right exactly when the round that answers is. -/
theorem Gets.right_iff {reads : Nat → CancelReads} {k : Nat}
    (g : Gets control sha256 deviceId userId jobId reads k)
    (unchanged : ∀ i < k,
      (cancelRound control sha256 deviceId userId jobId (reads i)).2 = (reads i).atScript)
    {answer : Except V2Error JobCancelResult}
    (here : (cancelRound control sha256 deviceId userId jobId (reads k)).1 = some answer) :
    CancelRight control sha256 deviceId userId jobId reads ↔
      RoundRight jobId (reads k) (cancelRound control sha256 deviceId userId jobId (reads k)).1
        (cancelRound control sha256 deviceId userId jobId (reads k)).2 := by
  have hcall := g.answer here
  constructor
  · intro h
    refine ⟨fun e he => ?_, fun hw => ?_, fun res hres => ?_⟩
    · rw [here, Option.some.injEq] at he
      exact h.errors e (hcall.trans he)
    · obtain ⟨res, hres, hact⟩ := h.writes k g hw
      exact ⟨res, by rw [here, ← hcall, hres], hact⟩
    · rw [here, Option.some.injEq] at hres
      obtain ⟨i, gi, hi, htruth⟩ := h.truthful res (hcall.trans hres)
      have h1 := g.le (i := i) (by simp [hi])
      have h2 := gi.le (i := k) (by simp [here])
      obtain rfl : i = k := by omega
      exact htruth
  · intro h
    refine ⟨fun e he => ?_, fun i gi hw => ?_, fun res hres => ?_⟩
    · exact h.errors e (by rw [here, ← hcall, he])
    · have hle := gi.le (i := k) (by simp [here])
      obtain rfl : i = k := by
        by_contra hne
        exact hw (unchanged i (by omega))
      obtain ⟨res, hres, hact⟩ := h.writes hw
      rw [here, Option.some.injEq] at hres
      exact ⟨res, hcall.trans hres, hact⟩
    · have hsome : (cancelRound control sha256 deviceId userId jobId (reads k)).1 =
          some (.ok res) := by rw [here, ← hcall, hres]
      exact ⟨k, g, hsome, h.truthful res hsome⟩

theorem CancelReadsJob.format {r : Redis} {job : JobRecordV2}
    (L : Linkage r) (h : CancelReadsJob control deviceId jobId r job) : jobIdV2Re jobId = true := by
  have hacc := h.accepted
  unfold JobRecordV2.Accepted jobRecordGuards jobFieldGuards at hacc
  simp only [Guard.all_append, Guard.all_cons] at hacc
  rw [← L.job_key h.stored]
  exact hacc.1.1.2.1

/-- **The operator cancel is right exactly when no round of it fails**: it never blames the
records with a `CORRUPT_…` code, writes nothing unless it answers `cancelled`, and answers
`already_cancelled`, `already_terminal` and the execution status as the job durably ended. The
rounds that count are the first and, when it loses the race to a claim, the second. -/
theorem cancel_right_iff {reads : Nat → CancelReads}
    (C : CallReads control sha256 deviceId userId jobId reads) :
    CancelRight control sha256 deviceId userId jobId reads ↔
      ¬RoundFails control deviceId jobId (reads 0) ∧
        ((∃ job later, Raced control deviceId jobId (reads 0) job later) →
          ¬RoundFails control deviceId jobId (reads 1)) := by
  have spec : Round control deviceId jobId (reads 0)
      (cancelRound control sha256 deviceId userId jobId (reads 0)).1
      (cancelRound control sha256 deviceId userId jobId (reads 0)).2 := round_spec C.first
  by_cases format : jobIdV2Re jobId = true
  swap
  · have stops : cancelJobForDevice control sha256 deviceId userId jobId reads =
        .error (.validation "Invalid job_id format.") := by
      unfold cancelJobForDevice
      rw [if_pos (by simpa using format)]
    have none : ¬∃ job, CancelReadsJob control deviceId jobId (reads 0).atJob job :=
      fun ⟨_, h⟩ => format (h.format C.linkage)
    refine ⟨fun _ => ⟨fun hf => ?_, fun ⟨_, _, raced⟩ => absurd ⟨_, raced.reads⟩ none⟩,
      fun _ => ⟨fun e he => ?_, fun k g => absurd g.format format, fun res hres => ?_⟩⟩
    · cases hf with
      | torn h _ => exact none ⟨_, h⟩
      | lost h _ _ => exact none ⟨_, h⟩
      | overtaken live _ _ => exact none ⟨_, live.reads⟩
    · rw [stops] at he
      cases he
      rfl
    · rw [stops] at hres
      cases hres
  cases h0 : (cancelRound control sha256 deviceId userId jobId (reads 0)).1 with
  | some answer =>
    have g : Gets control sha256 deviceId userId jobId reads 0 :=
      ⟨format, by decide, fun i hi => absurd hi (by omega)⟩
    have calm : ¬∃ job later, Raced control deviceId jobId (reads 0) job later := by
      intro raced
      rw [spec.none_iff.2 raced] at h0
      cases h0
    rw [g.right_iff (fun i hi => absurd hi (by omega)) h0, spec.right_iff]
    exact ⟨fun h => ⟨h, fun raced => absurd raced calm⟩, fun h => h.1⟩
  | none =>
    obtain ⟨R, -⟩ := C.second h0
    have spec1 : Round control deviceId jobId (reads 1)
        (cancelRound control sha256 deviceId userId jobId (reads 1)).1
        (cancelRound control sha256 deviceId userId jobId (reads 1)).2 := round_spec R
    have g : Gets control sha256 deviceId userId jobId reads 1 :=
      ⟨format, by decide, fun i hi => by
        obtain rfl : i = 0 := by omega
        exact h0⟩
    obtain ⟨answer, h1⟩ := Option.ne_none_iff_exists'.1 (C.no_second_race h0)
    have raced := spec.none_iff.1 h0
    have unchanged : (cancelRound control sha256 deviceId userId jobId (reads 0)).2 =
        (reads 0).atScript := by
      rw [h0] at spec
      exact spec.unchanged
    have fine : ¬RoundFails control deviceId jobId (reads 0) := by
      apply spec.right_iff.1
      rw [h0]
      exact ⟨fun e he => (by cases he), fun hw => absurd unchanged hw, fun res hres => (by cases hres)⟩
    rw [g.right_iff (fun i hi => ?_) h1, spec1.right_iff]
    · exact ⟨fun h => ⟨fine, fun _ => h⟩, fun h => h.2 raced⟩
    · obtain rfl : i = 0 := by omega
      exact unchanged

/-! ### calls that meet two stores -/

theorem Round.unchanged_of_ended {x : CancelReads}
    {answer : Option (Except V2Error JobCancelResult)} {r : Redis}
    (h : Round control deviceId jobId x answer r) {a : Option String} {s : ExecutionStatus}
    (stage : stageOf x.atScript jobId = .ended a s) : r = x.atScript := by
  cases h with
  | cancelled _ _ _ _ live _ _ _ => exact absurd stage (live _ _)
  | _ => rfl

/-- The first round reads `before` and runs its script on `after`; later rounds meet `after`. -/
def overtakenReads (before after : Redis) : Nat → CancelReads
  | 0 => ⟨3500, before, before, 4000, after⟩
  | _ + 1 => ⟨4000, after, after, 4000, after⟩

theorem overtakenReads_chain {before after : Redis} (L : Linkage before) (I : IdsOk before)
    {l : List (Nat × Call)} (run : coordinated.Run before l after) {a : Option String}
    {s : ExecutionStatus} (stage : stageOf after jobId = .ended a s) :
    CallReads control sha256 deviceId userId jobId (overtakenReads before after) := by
  have L' := L.run (scripts_of_coordinated run)
  have I' := I.run run
  have stays {x : CancelReads} (R : RoundReads x) (h : x.atScript = after) :
      (cancelRound control sha256 deviceId userId jobId x).2 = after := by
    have spec : Round control deviceId jobId x
        (cancelRound control sha256 deviceId userId jobId x).1
        (cancelRound control sha256 deviceId userId jobId x).2 := round_spec R
    rw [spec.unchanged_of_ended (h ▸ stage), h]
  refine ⟨L, I, fun k => ?_, fun k => ?_, fun k => ⟨[], ?_⟩⟩
  · cases k <;> exact ⟨[], .nil _⟩
  · cases k with
    | zero => exact ⟨l, run⟩
    | succ k => exact ⟨[], .nil _⟩
  · cases k with
    | zero =>
      rw [stays ⟨L, I, ⟨[], .nil _⟩, ⟨l, run⟩⟩ rfl]
      exact .nil _
    | succ k =>
      rw [stays ⟨L', I', ⟨[], .nil _⟩, ⟨[], .nil _⟩⟩ rfl]
      exact .nil _

end call

/-! ### the claimed job, cancelled by another operator or ended by its owner -/

section sample

/-- SHA-256 on the two inputs that the rounds below can give it. -/
def sampleSha256 (input : String) : String :=
  if input = "ceo:operator-cancel\x00" ++ sampleJob.jobId ++ "\x00" ++ sampleClaim.attemptId ++
      "\x00" ++ sampleCancel.deviceId then
    "b3db909dbd21c8dc3560a914a88763abd937e993baf94f671e160568ab08b32e"
  else "658c2e133f117f5d4b61625f3a341dc7fda23e212e8ab323acc90368da9722eb"

theorem sampleCancel_passed : ∀ a ∈ [((3000 : Nat), Call.cancel sampleCancel)], a.2.Passed := by
  intro a ha
  obtain rfl := List.mem_singleton.1 ha
  exact ⟨by decide, by decide, sampleJob.userId, by decide, rfl⟩

set_option maxRecDepth 10000 in
theorem stageOf_cancelledCalls :
    stageOf (replay cancelledCalls) sampleJob.jobId =
      .ended (some sampleClaim.attemptId) .cancelled := by
  decide +kernel

theorem linkage_claimedCalls : Linkage (replay claimedCalls) :=
  linkage_reachable (replay_reachable claimedCalls)

theorem idsOk_claimedCalls : IdsOk (replay claimedCalls) :=
  idsOk_reachable (coordinated_replay claimedCalls_passed)

/-- Another operator's cancel of the claimed job comes in before the script. -/
theorem cancel_right_overtaken :
    CancelRight sampleControl sampleSha256 sampleCancel.deviceId sampleJob.userId sampleJob.jobId
      (overtakenReads (replay claimedCalls) (replay cancelledCalls)) := by
  have run := coordinated_append claimedCalls sampleCancel_passed
  have active {job : JobRecordV2} (h : CancelReadsJob sampleControl sampleCancel.deviceId
      sampleJob.jobId (replay claimedCalls) job) : job.status = .active := by
    have hst := h.stored
    rw [replay_claimed_jobs] at hst
    exact Option.some.inj hst ▸ rfl
  apply (cancel_right_iff (overtakenReads_chain linkage_claimedCalls idsOk_claimedCalls run
    stageOf_cancelledCalls)).2
  refine ⟨fun fails => ?_, fun ⟨job, later, raced⟩ => ?_⟩
  · cases fails with
    | torn h torn => exact claimed_not_torn h.stored torn
    | lost h queued _ => exact absurd (queued.symm.trans (active h)) (by decide)
    | overtaken _ stage other =>
      have hs := stageOf_cancelledCalls.symm.trans stage
      injection hs with _ hs
      exact other hs.symm
  · exact absurd (raced.queued.symm.trans (active raced.reads)) (by decide)

def createdCalls : List (Nat × Call) := [(1000, .create sampleJob sampleJob.requestId)]

/-- The record of `sampleJob` in the store `createdCalls` leave. -/
def createdSample : JobRecordV2 :=
  { sampleJob with status := .queued, streamEntryId := some "1000-0" }

def sampleReport : ExecutionReport :=
  { schemaVersion := 2
    executionStatus := .completed
    businessOutcome := .unverified
    taskDispatched := true
    finishedAtMs := 3000
    durationMs := 500
    executor := ⟨"codex", "1.0.0"⟩
    receiptSha256 := "3333333333333333333333333333333333333333333333333333333333333333"
    error := none }

def sampleOwner : AttemptParams := ownerParams claimedSampleAttempt

def reportedCalls : List (Nat × Call) :=
  claimedCalls ++ [(2500, .start sampleOwner), (3000, .report sampleOwner sampleReport)]

set_option maxRecDepth 10000 in
theorem getJob_created :
    getJob (replay createdCalls) sampleJob.jobId = .ok (some createdSample) := by
  decide +kernel

set_option maxRecDepth 10000 in
theorem getAttempt_claimed :
    getAttempt (replay claimedCalls) sampleClaim.attemptId =
      .ok (some claimedSampleAttempt) := by
  decide +kernel

set_option maxRecDepth 10000 in
theorem stageOf_reportedCalls :
    stageOf (replay reportedCalls) sampleJob.jobId =
      .ended (some sampleClaim.attemptId) .completed := by
  decide +kernel

theorem getJob_ok {r : Redis} {id : String} {job : JobRecordV2} (h : getJob r id = .ok (some job)) :
    r.jobs id = some job ∧ job.Accepted := by
  cases hj : r.jobs id with
  | none => simp [getJob_of_none hj] at h
  | some job' =>
    rcases getJob_of_some hj with ⟨h', hok⟩ | ⟨⟨_, h'⟩, -⟩
    · rw [h'] at h
      obtain rfl := Option.some.inj (Except.ok.inj h)
      exact ⟨rfl, hok⟩
    · rw [h'] at h
      cases h

theorem sampleReads_job {r : Redis} {job : JobRecordV2}
    (h : getJob r sampleJob.jobId = .ok (some job)) (target : job.targetId = sampleJob.targetId) :
    CancelReadsJob sampleControl sampleCancel.deviceId sampleJob.jobId r job := by
  obtain ⟨stored, accepted⟩ := getJob_ok h
  refine ⟨stored, accepted, ?_⟩
  simp [sampleControl, target]

theorem createdCalls_linkage : Linkage (replay createdCalls) ∧ IdsOk (replay createdCalls) := by
  refine ⟨linkage_reachable (replay_reachable createdCalls), idsOk_reachable (coordinated_replay ?_)⟩
  intro a ha
  apply claimedCalls_passed
  simp only [createdCalls, List.mem_singleton] at ha
  simp [claimedCalls, ha]

theorem lostCalls_passed :
    ∀ a ∈ [((2000 : Nat), Call.claim sampleClaim), (3000, .cancel sampleCancel)], a.2.Passed := by
  intro a ha
  rcases List.mem_cons.1 ha with rfl | ha
  · exact claimedCalls_passed _ (by simp [claimedCalls])
  · exact sampleCancel_passed a ha

theorem reportedCalls_passed :
    ∀ a ∈ [((2500 : Nat), Call.start sampleOwner), (3000, .report sampleOwner sampleReport)],
      a.2.Passed := by
  intro a ha
  simp only [List.mem_cons, List.not_mem_nil, or_false] at ha
  rcases ha with rfl | rfl
  · trivial
  · have ok : (executionReportSchema sampleReport).all (·.holds) = true := by decide +kernel
    intro g hg
    exact List.all_eq_true.1 ok g hg

/-- The cancel of `sampleJob`. -/
def sampleCall (reads : Nat → CancelReads) : Except V2Error JobCancelResult :=
  cancelJobForDevice sampleControl sampleSha256 sampleCancel.deviceId sampleJob.userId
    sampleJob.jobId reads

abbrev SampleReads (reads : Nat → CancelReads) : Prop :=
  CallReads sampleControl sampleSha256 sampleCancel.deviceId sampleJob.userId sampleJob.jobId reads

theorem sampleCall_answer {reads : Nat → CancelReads} {answer : Except V2Error JobCancelResult}
    (h : (cancelRound sampleControl sampleSha256 sampleCancel.deviceId sampleJob.userId
      sampleJob.jobId (reads 0)).1 = some answer) : sampleCall reads = answer := by
  have gets : Gets sampleControl sampleSha256 sampleCancel.deviceId sampleJob.userId
      sampleJob.jobId reads 0 :=
    ⟨by decide +kernel, by decide, fun i hi => absurd hi (by omega)⟩
  exact gets.answer h

/-- Two wrong answers: a claim and another cancel come between the reads and the script, and the
call blames the attempt record; the owner's `COMPLETED` report does, and the call says the job
was cancelled already. -/
theorem cancel_wrong :
    SampleReads (overtakenReads (replay createdCalls) (replay cancelledCalls)) ∧
      sampleCall (overtakenReads (replay createdCalls) (replay cancelledCalls)) =
        .error (.store (.script .corruptAttemptRecord)) ∧
      SampleReads (overtakenReads (replay claimedCalls) (replay reportedCalls)) ∧
      stageOf (replay reportedCalls) sampleJob.jobId =
        .ended (some sampleClaim.attemptId) .completed ∧
      ∃ res, sampleCall (overtakenReads (replay claimedCalls) (replay reportedCalls)) = .ok res ∧
        res.action = .alreadyCancelled := by
  have lost : SampleReads (overtakenReads (replay createdCalls) (replay cancelledCalls)) :=
    overtakenReads_chain createdCalls_linkage.1 createdCalls_linkage.2
      (coordinated_append createdCalls lostCalls_passed) stageOf_cancelledCalls
  have overtaken : SampleReads (overtakenReads (replay claimedCalls) (replay reportedCalls)) :=
    overtakenReads_chain linkage_claimedCalls idsOk_claimedCalls
      (coordinated_append claimedCalls reportedCalls_passed) stageOf_reportedCalls
  have created := sampleReads_job getJob_created rfl
  have live : ReadsLive sampleControl sampleCancel.deviceId sampleJob.jobId
      (overtakenReads (replay claimedCalls) (replay reportedCalls) 0) claimedSample
      claimedSampleAttempt :=
    ⟨sampleReads_job getJob_claimed rfl, rfl, rfl, getAttempt_claimed, by decide⟩
  refine ⟨lost, ?_, overtaken, stageOf_reportedCalls, ?_⟩
  · apply sampleCall_answer
    exact (round_spec lost.first).answer_of_lost created rfl stageOf_cancelledCalls
  · obtain ⟨res, answer, action, -⟩ :=
      (round_spec overtaken.first).answer_of_overtaken live stageOf_reportedCalls
    exact ⟨res, sampleCall_answer answer, action⟩

end sample

end Ceo.Jobs
