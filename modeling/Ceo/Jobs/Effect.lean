import Ceo.Jobs.Store
import Ceo.Lib.Transition

/-!
# What a store call can do

`Effect now r r' c` lists every way the call `c`, run on `r` at Redis time
`now`, can leave the job and attempt records as `r'` has them, with all the
script knew when it wrote. `exec_effect` is the one place where the scripts
are taken apart: invariants are proved from the eight effects.
-/

namespace Ceo.Jobs

open Ceo.Lib Function

namespace Redis

@[simp] theorem setJob_jobs (r : Redis) (id : String) (j : JobRecordV2) :
    (r.setJob id j).jobs = update r.jobs id (some (Cjson.encodeJob j)) := rfl

@[simp] theorem setJob_attempts (r : Redis) (id : String) (j : JobRecordV2) :
    (r.setJob id j).attempts = r.attempts := rfl

@[simp] theorem setAttempt_jobs (r : Redis) (id : String) (a : AttemptRecordV1) :
    (r.setAttempt id a).jobs = r.jobs := rfl

@[simp] theorem setAttempt_attempts (r : Redis) (id : String) (a : AttemptRecordV1) :
    (r.setAttempt id a).attempts = update r.attempts id (some (Cjson.encodeAttempt a)) := rfl

@[simp] theorem zremTargetQueue_jobs (r : Redis) (t id : String) :
    (r.zremTargetQueue t id).jobs = r.jobs := rfl

@[simp] theorem zremTargetQueue_attempts (r : Redis) (t id : String) :
    (r.zremTargetQueue t id).attempts = r.attempts := rfl

end Redis

/-! ### what the writes say -/

/-- The job record `create` leaves, once the stream entry is there. -/
def createdJob (job : JobRecordV2) (entry : StreamId) : JobRecordV2 :=
  { job with status := .queued, streamEntryId := some entry.text, latestAttemptId := none }

def claimedJob (job : JobRecordV2) (attemptId : String) : JobRecordV2 :=
  { job with status := .active, latestAttemptId := some attemptId }

def reportedJob (job : JobRecordV2) : JobRecordV2 := { job with status := .terminal }

def cancelledJob (now : Nat) (job : JobRecordV2) (p : CancelParams) : JobRecordV2 :=
  { job with status := .terminal, cancel := some ⟨now, p.deviceId, p.reason⟩ }

def claimedAttempt (now : Nat) (job : JobRecordV2) (p : ClaimParams) : AttemptRecordV1 :=
  newAttempt now job
    { jobId := p.jobId
      workspaceId := p.expectedWorkspaceId
      targetId := p.expectedTargetId
      deviceId := p.deviceId
      targetBindingId := p.targetBindingId
      attemptId := p.attemptId
      claimTokenSha256 := p.claimTokenSha256
      isReplayOnly := p.isReplayOnly }

def startedAttempt (now : Nat) (att : AttemptRecordV1) : AttemptRecordV1 :=
  { att with phase := .running, startedAtMs := some now }

def reportedAttempt (now : Nat) (att : AttemptRecordV1) (rep : ExecutionReport) : AttemptRecordV1 :=
  { att with phase := .terminal, report := some { toExecutionReport := rep, receivedAtMs := now } }

def cancelledAttempt (now : Nat) (att : AttemptRecordV1) (p : CancelParams) : AttemptRecordV1 :=
  { att with phase := .terminal, report := some (cancelReport now att p.cancelReceiptSha256) }

def recordedAttempt (now : Nat) (att : AttemptRecordV1) (result : PersistedJobResult) :
    AttemptRecordV1 :=
  { att with result := some { result with receivedAtMs := now } }

/-- `p` names an attempt of its job, and owns it. -/
structure Owns (r : Redis) (p : AttemptParams) (job : JobRecordV2) (att : AttemptRecordV1) :
    Prop where
  job_at : r.jobs p.jobId = some job
  attempt_at : r.attempts p.attemptId = some att
  latest : job.latestAttemptId = some att.attemptId
  jobId : att.jobId = job.jobId
  device : att.deviceId = p.deviceId
  token : att.claimTokenSha256 = p.claimTokenSha256

inductive Effect (now : Nat) (r r' : Redis) : Call → Prop where
  | frame {c : Call} (jobs : r'.jobs = r.jobs) (attempts : r'.attempts = r.attempts) :
    Effect now r r' c
  | created {job : JobRecordV2} {requestId : String} (entry : StreamId)
    (accepted : job.Accepted) (fresh : r.jobs job.jobId = none)
    (jobs : r'.jobs = update r.jobs job.jobId (some (Cjson.encodeJob (createdJob job entry))))
    (attempts : r'.attempts = r.attempts) :
    Effect now r r' (.create job requestId)
  | claimed {p : ClaimParams} (job : JobRecordV2)
    (job_at : r.jobs p.jobId = some job) (jobId : job.jobId = p.jobId)
    (workspace : job.workspaceId = p.expectedWorkspaceId)
    (target : job.targetId = p.expectedTargetId) (isNew : p.isReplayOnly = false)
    (queued : job.status = .queued) (live : job.claimDeadlineMs = 0 ∨ now < job.claimDeadlineMs)
    (fresh : r.attempts p.attemptId = none) (unfenced : r.fenced p.expectedTargetId now = false)
    (jobs : r'.jobs = update r.jobs p.jobId (some (Cjson.encodeJob (claimedJob job p.attemptId))))
    (attempts : r'.attempts =
      update r.attempts p.attemptId (some (Cjson.encodeAttempt (claimedAttempt now job p)))) :
    Effect now r r' (.claim p)
  | started {p : AttemptParams} (job : JobRecordV2) (att : AttemptRecordV1)
    (owns : Owns r p job att) (attemptId : att.attemptId = p.attemptId)
    (active : job.status = .active) (phase : att.phase = .claimed)
    (jobs : r'.jobs = r.jobs)
    (attempts : r'.attempts =
      update r.attempts p.attemptId (some (Cjson.encodeAttempt (startedAttempt now att)))) :
    Effect now r r' (.start p)
  | reported {p : AttemptParams} {rep : ExecutionReport} (job : JobRecordV2) (att : AttemptRecordV1)
    (owns : Owns r p job att) (attemptId : att.attemptId = p.attemptId)
    (active : job.status = .active)
    (phase : att.phase = .claimed ∧ rep.taskDispatched = false ∨ att.phase = .running)
    (jobs : r'.jobs = update r.jobs p.jobId (some (Cjson.encodeJob (reportedJob job))))
    (attempts : r'.attempts =
      update r.attempts p.attemptId (some (Cjson.encodeAttempt (reportedAttempt now att rep)))) :
    Effect now r r' (.report p rep)
  | cancelledActive {p : CancelParams} (job : JobRecordV2) (att : AttemptRecordV1)
    (job_at : r.jobs p.jobId = some job) (active : job.status = .active)
    (attempt_at : r.attempts (cancelAttemptKey p.expectedAttemptId) = some att)
    (expected : job.latestAttemptId.getD "" = p.expectedAttemptId.getD "")
    (jobId : att.jobId = job.jobId) (latest : job.latestAttemptId = some att.attemptId)
    (phase : att.phase = .claimed ∨ att.phase = .running ∧ att.startedAtMs ≠ none)
    (jobs : r'.jobs = update r.jobs p.jobId (some (Cjson.encodeJob (cancelledJob now job p))))
    (attempts : r'.attempts = update r.attempts (cancelAttemptKey p.expectedAttemptId)
      (some (Cjson.encodeAttempt (cancelledAttempt now att p)))) :
    Effect now r r' (.cancel p)
  | cancelledQueued {p : CancelParams} (job : JobRecordV2)
    (job_at : r.jobs p.jobId = some job) (queued : job.status = .queued)
    (jobs : r'.jobs = update r.jobs p.jobId (some (Cjson.encodeJob (cancelledJob now job p))))
    (attempts : r'.attempts = r.attempts) :
    Effect now r r' (.cancel p)
  | recorded {p : AttemptParams} {result : PersistedJobResult} {mode : DeliveryMode}
    (job : JobRecordV2) (att : AttemptRecordV1) (owns : Owns r p job att)
    (jobs : r'.jobs = r.jobs)
    (attempts : r'.attempts =
      update r.attempts p.attemptId (some (Cjson.encodeAttempt (recordedAttempt now att result)))) :
    Effect now r r' (.recordResult p result mode)

/-! ### the scripts taken apart -/

theorem createJob_effect (now : Nat) (job : JobRecordV2) (requestId : String) (r : Redis) :
    Effect now r (createJob now job requestId r).2 (.create job requestId) := by
  unfold createJob
  cases hs : serializeJobRecordV2 job with
  | error m => exact .frame rfl rfl
  | ok record =>
    obtain ⟨rfl, hacc⟩ := parseJobRecordV2_ok hs
    simp only [v2CreateJobScript]
    cases r.requests (requestKeyV2 record.userId record.workspaceId requestId) with
    | some e => exact .frame rfl rfl
    | none =>
      split_ifs with hf hj
      · exact .frame rfl rfl
      · exact .frame rfl rfl
      · refine .created (r.lastStreamId.next now) hacc ?_ rfl rfl
        simpa using hj

theorem claimJob_effect (now : Nat) (p : ClaimParams) (r : Redis) :
    Effect now r (claimJob now p r).2 (.claim p) := by
  have hsnd : (claimJob now p r).2 = (claimScript now p r).2 := by
    unfold claimJob
    rcases claimScript now p r with ⟨_ | _, r'⟩ <;> rfl
  rw [hsnd, claimScript, v2ClaimJobScript]
  cases hj : r.jobs p.jobId with
  | none => split_ifs <;> exact .frame rfl rfl
  | some job =>
    dsimp only
    split_ifs with hf hid hrep hro hst hexp hcol
    case neg =>
      simp only [not_or, not_not] at hid
      refine .claimed job hj hid.1 hid.2.1 hid.2.2 ?_ (by simpa using hst) (by omega) ?_ ?_ rfl rfl
      · simpa using hro
      · simpa using hcol
      · simpa using hf
    all_goals exact .frame rfl rfl

theorem startJob_effect (now : Nat) (p : AttemptParams) (r : Redis) :
    Effect now r (startJob now p r).2 (.start p) := by
  have hsnd : (startJob now p r).2 = (v2StartJobScript now p.keys p.argv r).2 := by
    unfold startJob
    rcases v2StartJobScript now p.keys p.argv r with ⟨_ | _, r'⟩ <;> rfl
  rw [hsnd, v2StartJobScript]
  cases hj : r.jobs p.keys.job with
  | none => exact .frame rfl rfl
  | some job =>
    cases ha : r.attempts p.keys.attempt with
    | none => exact .frame rfl rfl
    | some att =>
      dsimp only
      split_ifs with hs hact hid
      case neg =>
        simp only [not_or, not_not] at hact
        simp only [identityMatches, Bool.not_eq_true', Bool.not_eq_false, Bool.and_eq_true,
          beq_iff_eq] at hid
        obtain ⟨⟨⟨⟨⟨haid, hjid⟩, -⟩, -⟩, hdev⟩, htok⟩ := hid
        cases hp : att.phase with
        | running => exact .frame rfl rfl
        | terminal => exact .frame rfl rfl
        | claimed =>
          exact .started job att ⟨hj, ha, by rw [hact.2, haid], hjid, hdev, htok⟩ haid hact.1 hp
            rfl rfl
      all_goals exact .frame rfl rfl

theorem reportTransition_none {job : JobRecordV2} {att : AttemptRecordV1} {rep : ExecutionReport}
    (h : reportTransition job att rep = none) :
    job.status = .active ∧
      (att.phase = .claimed ∧ rep.taskDispatched = false ∨ att.phase = .running) := by
  unfold reportTransition at h
  split_ifs at h with hst hd hp hr
  · rw [not_and_or, not_not, not_not] at hp
    exact ⟨by simpa using hst, hp.imp_left (⟨·, hd⟩)⟩
  · simp only [not_or, not_not] at hr
    exact ⟨by simpa using hst, .inr hr.1⟩

theorem reportJob_effect (now : Nat) (p : AttemptParams) (rep : ExecutionReport) (r : Redis) :
    Effect now r (reportJob now p rep r).2 (.report p rep) := by
  have hsnd : (reportJob now p rep r).2 = (v2ReportJobScript now p.keys p.argv rep r).2 := by
    unfold reportJob
    rcases v2ReportJobScript now p.keys p.argv rep r with ⟨_ | _, r'⟩ <;> rfl
  rw [hsnd, v2ReportJobScript]
  cases hj : r.jobs p.keys.job with
  | none => exact .frame rfl rfl
  | some job =>
    cases ha : r.attempts p.keys.attempt with
    | none => exact .frame rfl rfl
    | some att =>
      dsimp only
      cases hinv : reportInvariants rep with
      | error e => split_ifs <;> exact .frame rfl rfl
      | ok u =>
        cases ht : reportTransition job att rep with
        | some e => split_ifs <;> exact .frame rfl rfl
        | none =>
          split_ifs with hs hlat hst hid hterm
          case neg =>
            rw [not_not] at hlat
            simp only [identityMatches, Bool.not_eq_true', Bool.not_eq_false, Bool.and_eq_true,
              beq_iff_eq] at hid
            obtain ⟨⟨⟨⟨⟨haid, hjid⟩, -⟩, -⟩, hdev⟩, htok⟩ := hid
            have hphase := reportTransition_none ht
            exact .reported job att ⟨hj, ha, by rw [hlat, haid], hjid, hdev, htok⟩ haid hphase.1
              hphase.2 rfl rfl
          all_goals exact .frame rfl rfl

theorem queued_of_not {s : JobStatus} (h1 : s ≠ .terminal) (h2 : s ≠ .preparing)
    (h3 : s ≠ .active) : s = .queued := by
  cases s <;> simp_all

theorem cancelJob_effect (now : Nat) (p : CancelParams) (r : Redis) :
    Effect now r (cancelJob now p r).2 (.cancel p) := by
  have hsnd : (cancelJob now p r).2 = (cancelScript now p r).2 := by
    unfold cancelJob
    rcases cancelScript now p r with ⟨_ | _, r'⟩ <;> rfl
  rw [hsnd, cancelScript, v2CancelJobScript]
  cases hj : r.jobs p.jobId with
  | none => exact .frame rfl rfl
  | some job =>
    cases ha : r.attempts (cancelAttemptKey p.expectedAttemptId) with
    | none =>
      dsimp only
      split_ifs with hterm hprep hexp hact
      case neg => exact .cancelledQueued job hj (queued_of_not hterm hprep hact) rfl rfl
      all_goals exact .frame rfl rfl
    | some att =>
      dsimp only
      split_ifs with hterm hprep hexp hact hid hph hst
      · exact .frame rfl rfl
      · exact .frame rfl rfl
      · exact .frame rfl rfl
      · exact .frame rfl rfl
      · exact .frame rfl rfl
      · exact .frame rfl rfl
      · simp only [not_or, not_not] at hid
        refine .cancelledActive job att hj hact ha (by simpa using hexp) hid.1 hid.2.symm ?_
          rfl rfl
        cases hp : att.phase <;> simp_all
      · exact .cancelledQueued job hj (queued_of_not hterm hprep hact) rfl rfl

theorem recordJobResult_effect (now : Nat) (p : AttemptParams) (result : PersistedJobResult)
    (mode : DeliveryMode) (r : Redis) :
    Effect now r (recordJobResult now p result mode r).2 (.recordResult p result mode) := by
  have hsnd : (recordJobResult now p result mode r).2 =
      (v2RecordResultScript now p.keys p.argv result mode r).2 := by
    unfold recordJobResult
    rcases v2RecordResultScript now p.keys p.argv result mode r with ⟨_ | _, r'⟩ <;> rfl
  rw [hsnd, v2RecordResultScript]
  cases hj : r.jobs p.keys.job with
  | none => exact .frame rfl rfl
  | some job =>
    cases ha : r.attempts p.keys.attempt with
    | none => exact .frame rfl rfl
    | some att =>
      dsimp only
      by_cases hid : att.jobId ≠ job.jobId ∨ job.latestAttemptId ≠ some att.attemptId
      · rw [if_pos hid]
        exact .frame rfl rfl
      rw [if_neg hid]
      by_cases hown : att.deviceId ≠ p.argv.deviceId ∨
          att.claimTokenSha256 ≠ p.argv.claimTokenSha256
      · rw [if_pos hown]
        exact .frame rfl rfl
      rw [if_neg hown]
      simp only [not_or, not_not] at hid hown
      have owns : Owns r p job att := ⟨hj, ha, hid.2, hid.1, hown.1, hown.2⟩
      cases att.result with
      | none => exact .recorded job att owns rfl rfl
      | some existing =>
        dsimp only
        split_ifs
        · exact .frame rfl rfl
        · exact .frame rfl rfl
        · exact .recorded job att owns rfl rfl

/-- **Every call has one of the effects.** -/
theorem exec_effect (now : Nat) (r : Redis) (c : Call) : Effect now r (exec now r c) c := by
  cases c with
  | create job requestId => exact createJob_effect now job requestId r
  | claim p => exact claimJob_effect now p r
  | start p => exact startJob_effect now p r
  | report p rep => exact reportJob_effect now p rep r
  | cancel p => exact cancelJob_effect now p r
  | recordResult p result mode => exact recordJobResult_effect now p result mode r
  | setFence t f => exact .frame rfl rfl
  | pruneTargetQueue t id => exact .frame rfl rfl

/-! ### what lies outside the records -/

/-- Jobs and attempts apart, the two stores are the same. -/
def RecordsOnly (r r' : Redis) : Prop :=
  ∃ jobs attempts, r' = { r with jobs := jobs, attempts := attempts }

theorem startJob_recordsOnly (now : Nat) (p : AttemptParams) (r : Redis) :
    RecordsOnly r (startJob now p r).2 := by
  have hsnd : (startJob now p r).2 = (v2StartJobScript now p.keys p.argv r).2 := by
    unfold startJob
    rcases v2StartJobScript now p.keys p.argv r with ⟨_ | _, r'⟩ <;> rfl
  rw [hsnd, v2StartJobScript]
  repeat' split
  all_goals exact ⟨_, _, rfl⟩

theorem reportJob_recordsOnly (now : Nat) (p : AttemptParams) (rep : ExecutionReport) (r : Redis) :
    RecordsOnly r (reportJob now p rep r).2 := by
  have hsnd : (reportJob now p rep r).2 = (v2ReportJobScript now p.keys p.argv rep r).2 := by
    unfold reportJob
    rcases v2ReportJobScript now p.keys p.argv rep r with ⟨_ | _, r'⟩ <;> rfl
  rw [hsnd, v2ReportJobScript]
  repeat' split
  all_goals exact ⟨_, _, rfl⟩

theorem recordJobResult_recordsOnly (now : Nat) (p : AttemptParams) (result : PersistedJobResult)
    (mode : DeliveryMode) (r : Redis) : RecordsOnly r (recordJobResult now p result mode r).2 := by
  have hsnd : (recordJobResult now p result mode r).2 =
      (v2RecordResultScript now p.keys p.argv result mode r).2 := by
    unfold recordJobResult
    rcases v2RecordResultScript now p.keys p.argv result mode r with ⟨_ | _, r'⟩ <;> rfl
  rw [hsnd, v2RecordResultScript]
  dsimp only
  repeat' split
  all_goals exact ⟨_, _, rfl⟩

/-! ### runs -/

/-- The store under any sequence of calls, each at any reading of the Redis clock. -/
def scripts : LTS Redis (Nat × Call) :=
  .ofFun (· = Redis.empty) fun r a => exec a.1 r a.2

/-- The store the given calls leave, from an empty one. -/
def replay (calls : List (Nat × Call)) : Redis :=
  calls.foldl (fun r a => exec a.1 r a.2) Redis.empty

theorem replay_reachable (calls : List (Nat × Call)) : scripts.Reachable (replay calls) :=
  ⟨Redis.empty, calls, rfl, LTS.run_ofFun _ _ _ _⟩

theorem replay_append (calls more : List (Nat × Call)) :
    scripts.Run (replay calls) more (replay (calls ++ more)) := by
  unfold replay
  rw [List.foldl_append]
  exact LTS.run_ofFun _ _ _ _

/-- The store together with the last reading of the Redis clock. -/
structure World where
  redis : Redis
  clock : Nat

/-- The store under calls at a clock that never goes back. -/
def clocked : LTS World (Nat × Call) where
  Init w := w.redis = Redis.empty
  Step w a w' := w.clock ≤ a.1 ∧ w' = ⟨exec a.1 w.redis a.2, a.1⟩

theorem run_of_clocked {w w' : World} {l : List (Nat × Call)} (h : clocked.Run w l w') :
    scripts.Run w.redis l w'.redis := by
  induction h with
  | nil => exact .nil _
  | cons hs _ ih =>
    obtain ⟨-, rfl⟩ := hs
    exact .cons rfl ih

theorem reachable_of_clocked {w : World} (h : clocked.Reachable w) :
    scripts.Reachable w.redis := by
  obtain ⟨w₀, l, h0, hr⟩ := h
  exact ⟨w₀.redis, l, h0, run_of_clocked hr⟩

end Ceo.Jobs
