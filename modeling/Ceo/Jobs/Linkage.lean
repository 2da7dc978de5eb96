import Ceo.Jobs.Effect
import Ceo.Jobs.View

/-!
# Job and attempt linkage

`Linkage r` is what the two record families of a store say about each other.
Each effect keeps it, so it holds after any calls, with any arguments, at any
readings of the clock.
-/

namespace Ceo.Jobs

open Ceo.Lib Function

theorem update_eq_some {α : Type} {m : String → Option α} {k i : String} {v w : α} :
    update m k (some v) i = some w ↔ i = k ∧ v = w ∨ i ≠ k ∧ m i = some w := by
  by_cases h : i = k <;> simp [update, h]

/-! ### encoding keeps what is not a number -/

section encode

variable (j : JobRecordV2) (a : AttemptRecordV1)

@[simp] theorem encodeJob_jobId : (Cjson.encodeJob j).jobId = j.jobId := by
  simp only [Cjson.encodeJob]
@[simp] theorem encodeJob_userId : (Cjson.encodeJob j).userId = j.userId := by
  simp only [Cjson.encodeJob]
@[simp] theorem encodeJob_workspaceId : (Cjson.encodeJob j).workspaceId = j.workspaceId := by
  simp only [Cjson.encodeJob]
@[simp] theorem encodeJob_targetId : (Cjson.encodeJob j).targetId = j.targetId := by
  simp only [Cjson.encodeJob]
@[simp] theorem encodeJob_status : (Cjson.encodeJob j).status = j.status := by
  simp only [Cjson.encodeJob]
@[simp] theorem encodeJob_latest : (Cjson.encodeJob j).latestAttemptId = j.latestAttemptId := by
  simp only [Cjson.encodeJob]
@[simp] theorem encodeJob_cancel_isSome :
    (Cjson.encodeJob j).cancel.isSome = j.cancel.isSome := by simp [Cjson.encodeJob]

@[simp] theorem encodeAttempt_attemptId : (Cjson.encodeAttempt a).attemptId = a.attemptId := by
  simp only [Cjson.encodeAttempt]
@[simp] theorem encodeAttempt_jobId : (Cjson.encodeAttempt a).jobId = a.jobId := by
  simp only [Cjson.encodeAttempt]
@[simp] theorem encodeAttempt_userId : (Cjson.encodeAttempt a).userId = a.userId := by
  simp only [Cjson.encodeAttempt]
@[simp] theorem encodeAttempt_workspaceId :
    (Cjson.encodeAttempt a).workspaceId = a.workspaceId := by simp only [Cjson.encodeAttempt]
@[simp] theorem encodeAttempt_targetId : (Cjson.encodeAttempt a).targetId = a.targetId := by
  simp only [Cjson.encodeAttempt]
@[simp] theorem encodeAttempt_deviceId : (Cjson.encodeAttempt a).deviceId = a.deviceId := by
  simp only [Cjson.encodeAttempt]
@[simp] theorem encodeAttempt_token :
    (Cjson.encodeAttempt a).claimTokenSha256 = a.claimTokenSha256 := by
  simp only [Cjson.encodeAttempt]
@[simp] theorem encodeAttempt_phase : (Cjson.encodeAttempt a).phase = a.phase := by
  simp only [Cjson.encodeAttempt]

end encode

/-! ### the invariant -/

/-- The attempt carries the job's ids. -/
structure SameIds (att : AttemptRecordV1) (job : JobRecordV2) : Prop where
  jobId : att.jobId = job.jobId
  userId : att.userId = job.userId
  workspaceId : att.workspaceId = job.workspaceId
  targetId : att.targetId = job.targetId

/-- The fields of an attempt that its phase decides. -/
def AttemptRecordV1.Staged (att : AttemptRecordV1) : Prop :=
  match att.phase with
  | .claimed => att.startedAtMs = none ∧ att.report = none
  | .running => att.startedAtMs ≠ none ∧ att.report = none
  | .terminal => att.report ≠ none

/-- The job names this stored attempt, and the attempt names the job. -/
structure Latest (r : Redis) (job : JobRecordV2) (att : AttemptRecordV1) : Prop where
  latest : job.latestAttemptId = some att.attemptId
  stored : r.attempts att.attemptId = some att
  ids : SameIds att job

/-- What a job's status says about its attempt. -/
def Linked (r : Redis) (job : JobRecordV2) : Prop :=
  match job.status with
  | .preparing => False
  | .queued => job.latestAttemptId = none
  | .active => ∃ att, Latest r job att ∧ att.phase ≠ .terminal
  | .terminal =>
    (∃ att, Latest r job att ∧ att.phase = .terminal) ∨
      job.latestAttemptId = none ∧ job.cancel.isSome

structure Linkage (r : Redis) : Prop where
  job_key {id : String} {job : JobRecordV2} : r.jobs id = some job → job.jobId = id
  attempt_key {id : String} {att : AttemptRecordV1} : r.attempts id = some att → att.attemptId = id
  staged {id : String} {att : AttemptRecordV1} : r.attempts id = some att → att.Staged
  linked {id : String} {job : JobRecordV2} : r.jobs id = some job → Linked r job
  owned {id : String} {att : AttemptRecordV1} :
    r.attempts id = some att → ∃ job, r.jobs att.jobId = some job ∧ job.latestAttemptId = some id

theorem Linkage.empty : Linkage Redis.empty where
  job_key h := by simp [Redis.empty] at h
  attempt_key h := by simp [Redis.empty] at h
  staged h := by simp [Redis.empty] at h
  linked h := by simp [Redis.empty] at h
  owned h := by simp [Redis.empty] at h

namespace Linkage

variable {r : Redis}

/-- The attempt a job names is stored and names the job. -/
theorem names (L : Linkage r) {id aid : String} {job : JobRecordV2} (hj : r.jobs id = some job)
    (hl : job.latestAttemptId = some aid) : ∃ att, att.attemptId = aid ∧ Latest r job att := by
  have key (att : AttemptRecordV1) (h : Latest r job att) :
      ∃ att, att.attemptId = aid ∧ Latest r job att :=
    ⟨att, by simpa [hl] using h.latest.symm, h⟩
  have link := L.linked hj
  unfold Linked at link
  cases hs : job.status <;> simp only [hs, hl] at link
  · cases link
  · obtain ⟨att, h, -⟩ := link
    exact key att h
  · rcases link with ⟨att, h, -⟩ | ⟨h0, -⟩
    · exact key att h
    · cases h0

theorem latest_of_owned (L : Linkage r) {id : String} {att : AttemptRecordV1}
    (h : r.attempts id = some att) :
    ∃ job, r.jobs att.jobId = some job ∧ Latest r job att := by
  obtain ⟨job, hj, hl⟩ := L.owned h
  obtain ⟨att', rfl, hlat⟩ := L.names hj hl
  have hst := hlat.stored
  rw [h] at hst
  exact ⟨job, hj, Option.some.inj hst ▸ hlat⟩

/-- What an owner's job and attempt have to do with each other. -/
theorem owns_latest (L : Linkage r) {p : AttemptParams} {job : JobRecordV2} {att : AttemptRecordV1}
    (o : Owns r p job att) : Latest r job att := by
  obtain ⟨job', hj', hl⟩ := L.latest_of_owned o.attempt_at
  have hk : job.jobId = p.jobId := L.job_key o.job_at
  rw [o.jobId, hk, o.job_at] at hj'
  obtain rfl := Option.some.inj hj'
  exact hl

theorem active_phase (L : Linkage r) {id : String} {job : JobRecordV2} {att : AttemptRecordV1}
    (hj : r.jobs id = some job) (hs : job.status = .active) (hl : Latest r job att) :
    att.phase ≠ .terminal := by
  have link := L.linked hj
  simp only [Linked, hs] at link
  obtain ⟨att', hl', hp⟩ := link
  have hid : att.attemptId = att'.attemptId := by simpa [hl.latest] using hl'.latest
  have : some att = some att' := by rw [← hl.stored, ← hl'.stored, hid]
  rw [Option.some.inj this]
  exact hp

theorem terminal_phase (L : Linkage r) {id : String} {job : JobRecordV2} {att : AttemptRecordV1}
    (hj : r.jobs id = some job) (hs : job.status = .terminal) (hl : Latest r job att) :
    att.phase = .terminal := by
  have link := L.linked hj
  simp only [Linked, hs] at link
  obtain ⟨att', hl', hp⟩ | ⟨h0, -⟩ := link
  · have hid : att.attemptId = att'.attemptId := by simpa [hl.latest] using hl'.latest
    have : some att = some att' := by rw [← hl.stored, ← hl'.stored, hid]
    rw [Option.some.inj this]
    exact hp
  · simp [hl.latest] at h0

/-- No attempt names a queued job. -/
theorem queued_free (L : Linkage r) {id : String} {job : JobRecordV2} (hj : r.jobs id = some job)
    (hs : job.status = .queued) {aid : String} {att : AttemptRecordV1}
    (ha : r.attempts aid = some att) : att.jobId ≠ id := by
  rintro rfl
  obtain ⟨job', hj', hl⟩ := L.owned ha
  rw [hj] at hj'
  obtain rfl := Option.some.inj hj'
  have link := L.linked hj
  simp [Linked, hs, hl] at link

theorem unique (L : Linkage r) {aid bid : String} {a b : AttemptRecordV1}
    (ha : r.attempts aid = some a) (hb : r.attempts bid = some b) (h : a.jobId = b.jobId) :
    aid = bid := by
  obtain ⟨job, hj, hl⟩ := L.owned ha
  obtain ⟨job', hj', hl'⟩ := L.owned hb
  rw [h, hj'] at hj
  obtain rfl := Option.some.inj hj
  simpa [hl] using hl'

end Linkage

/-! ### one rewritten pair of records -/

/-- The effects on an owned attempt, with or without its job: the pair keeps its
ids and stays linked, and nothing else changes. -/
theorem Linkage.rewrite {r r' : Redis} (L : Linkage r) {job : JobRecordV2} {att : AttemptRecordV1}
    (job' : JobRecordV2) (att' : AttemptRecordV1) (hj : r.jobs job.jobId = some job) (hl : Latest r job att)
    (jobId : job'.jobId = job.jobId) (latest : job'.latestAttemptId = job.latestAttemptId)
    (jobIds : SameIds att' job') (attemptId : att'.attemptId = att.attemptId) (staged : att'.Staged)
    (status : job'.status = .active ∧ att'.phase ≠ .terminal ∨
      job'.status = .terminal ∧ att'.phase = .terminal)
    (jobs : r'.jobs = update r.jobs job.jobId (some job'))
    (attempts : r'.attempts = update r.attempts att.attemptId (some att')) : Linkage r' := by
  have hl' : Latest r' job' att' :=
    ⟨by rw [latest, hl.latest, attemptId], by simp [attempts, attemptId], jobIds⟩
  refine ⟨?_, ?_, ?_, ?_, ?_⟩
  · intro id j h
    rw [jobs, update_eq_some] at h
    rcases h with ⟨rfl, rfl⟩ | ⟨-, h⟩
    · exact jobId
    · exact L.job_key h
  · intro id a h
    rw [attempts, update_eq_some] at h
    rcases h with ⟨rfl, rfl⟩ | ⟨-, h⟩
    · exact attemptId
    · exact L.attempt_key h
  · intro id a h
    rw [attempts, update_eq_some] at h
    rcases h with ⟨rfl, rfl⟩ | ⟨-, h⟩
    · exact staged
    · exact L.staged h
  · intro id j h
    rw [jobs, update_eq_some] at h
    rcases h with ⟨rfl, rfl⟩ | ⟨hne, h⟩
    · rcases status with ⟨hs, hp⟩ | ⟨hs, hp⟩
      · simp only [Linked, hs]
        exact ⟨att', hl', hp⟩
      · simp only [Linked, hs]
        exact .inl ⟨att', hl', hp⟩
    · -- another job: its attempt is not the one rewritten
      have other {b : AttemptRecordV1} (hb : Latest r j b) : Latest r' j b := by
        refine ⟨hb.latest, ?_, hb.ids⟩
        have hne' : b.attemptId ≠ att.attemptId := by
          intro he
          have : some b = some att := by rw [← hb.stored, ← hl.stored, he]
          obtain rfl := Option.some.inj this
          exact hne (by rw [← L.job_key h, ← hb.ids.jobId, hl.ids.jobId])
        rw [attempts, update_of_ne hne']
        exact hb.stored
      have link := L.linked h
      unfold Linked at link ⊢
      cases hs : j.status <;> simp only [hs] at link ⊢
      · exact link
      · exact link.imp fun b hb => hb.imp_left other
      · exact link.imp_left fun ⟨b, hb⟩ => ⟨b, hb.imp_left other⟩
  · intro id a h
    rw [attempts, update_eq_some] at h
    rcases h with ⟨rfl, rfl⟩ | ⟨hne, h⟩
    · refine ⟨job', ?_, by rw [latest, hl.latest]⟩
      simp [jobs, jobIds.jobId, jobId]
    · obtain ⟨j, hj', hlj⟩ := L.owned h
      refine ⟨j, ?_, hlj⟩
      have hne' : a.jobId ≠ job.jobId := by
        intro he
        rw [he, hj] at hj'
        obtain rfl := Option.some.inj hj'
        rw [hl.latest] at hlj
        exact hne (Option.some.inj hlj).symm
      rw [jobs, update_of_ne hne']
      exact hj'

/-! ### the step lemma -/

namespace Linkage

variable {r r' : Redis}

theorem congr (L : Linkage r) (jobs : r'.jobs = r.jobs) (attempts : r'.attempts = r.attempts) :
    Linkage r' := by
  have same {job : JobRecordV2} {att : AttemptRecordV1} (h : Latest r job att) :
      Latest r' job att := ⟨h.latest, attempts ▸ h.stored, h.ids⟩
  refine ⟨fun h => L.job_key (jobs ▸ h), fun h => L.attempt_key (attempts ▸ h),
    fun h => L.staged (attempts ▸ h), ?_, ?_⟩
  · intro id job h
    have link := L.linked (jobs ▸ h)
    unfold Linked at link ⊢
    cases hs : job.status <;> simp only [hs] at link ⊢
    · exact link
    · exact link.imp fun _ => And.imp_left same
    · exact link.imp_left fun ⟨b, hb⟩ => ⟨b, hb.imp_left same⟩
  · intro id att h
    rw [jobs]
    exact L.owned (attempts ▸ h)

/-- A job whose key was free, or whose attempt is still to come, is put in place. -/
theorem setUnclaimed (L : Linkage r) (job : JobRecordV2)
    (free : ∀ {id att}, r.attempts id = some att → att.jobId ≠ job.jobId)
    (latest : job.latestAttemptId = none)
    (status : job.status = .queued ∨ job.status = .terminal ∧ job.cancel.isSome)
    (jobs : r'.jobs = update r.jobs job.jobId (some job)) (attempts : r'.attempts = r.attempts) :
    Linkage r' := by
  have same {j : JobRecordV2} {att : AttemptRecordV1} (h : Latest r j att) : Latest r' j att :=
    ⟨h.latest, attempts ▸ h.stored, h.ids⟩
  refine ⟨?_, fun h => L.attempt_key (attempts ▸ h), fun h => L.staged (attempts ▸ h), ?_, ?_⟩
  · intro id j h
    rw [jobs, update_eq_some] at h
    rcases h with ⟨rfl, rfl⟩ | ⟨-, h⟩
    · rfl
    · exact L.job_key h
  · intro id j h
    rw [jobs, update_eq_some] at h
    rcases h with ⟨rfl, rfl⟩ | ⟨-, h⟩
    · rcases status with hs | ⟨hs, hc⟩ <;> simp only [Linked, hs]
      · exact latest
      · exact .inr ⟨latest, hc⟩
    · have link := L.linked h
      unfold Linked at link ⊢
      cases hs : j.status <;> simp only [hs] at link ⊢
      · exact link
      · exact link.imp fun _ => And.imp_left same
      · exact link.imp_left fun ⟨b, hb⟩ => ⟨b, hb.imp_left same⟩
  · intro id att h
    rw [attempts] at h
    rw [jobs, update_of_ne (free h)]
    exact L.owned h

/-- A queued job gets its one attempt. -/
theorem claim (L : Linkage r) {job : JobRecordV2} (job' : JobRecordV2) (att : AttemptRecordV1)
    (hj : r.jobs job.jobId = some job) (queued : job.status = .queued)
    (fresh : r.attempts att.attemptId = none) (jobId : job'.jobId = job.jobId)
    (active : job'.status = .active) (latest : job'.latestAttemptId = some att.attemptId)
    (ids : SameIds att job') (staged : att.Staged) (phase : att.phase ≠ .terminal)
    (jobs : r'.jobs = update r.jobs job.jobId (some job'))
    (attempts : r'.attempts = update r.attempts att.attemptId (some att)) : Linkage r' := by
  have kept {id : String} {a : AttemptRecordV1} (h : r.attempts id = some a) :
      r'.attempts id = some a := by
    have hne : id ≠ att.attemptId := by
      rintro rfl
      simp [fresh] at h
    rw [attempts, update_of_ne hne, h]
  have same {j : JobRecordV2} {a : AttemptRecordV1} (h : Latest r j a) : Latest r' j a :=
    ⟨h.latest, kept h.stored, h.ids⟩
  refine ⟨?_, ?_, ?_, ?_, ?_⟩
  · intro id j h
    rw [jobs, update_eq_some] at h
    rcases h with ⟨rfl, rfl⟩ | ⟨-, h⟩
    · exact jobId
    · exact L.job_key h
  · intro id a h
    rw [attempts, update_eq_some] at h
    rcases h with ⟨rfl, rfl⟩ | ⟨-, h⟩
    · rfl
    · exact L.attempt_key h
  · intro id a h
    rw [attempts, update_eq_some] at h
    rcases h with ⟨rfl, rfl⟩ | ⟨-, h⟩
    · exact staged
    · exact L.staged h
  · intro id j h
    rw [jobs, update_eq_some] at h
    rcases h with ⟨rfl, rfl⟩ | ⟨-, h⟩
    · simp only [Linked, active]
      exact ⟨att, ⟨latest, by simp [attempts], ids⟩, phase⟩
    · have link := L.linked h
      unfold Linked at link ⊢
      cases hs : j.status <;> simp only [hs] at link ⊢
      · exact link
      · exact link.imp fun _ => And.imp_left same
      · exact link.imp_left fun ⟨b, hb⟩ => ⟨b, hb.imp_left same⟩
  · intro id a h
    rw [attempts, update_eq_some] at h
    rcases h with ⟨rfl, rfl⟩ | ⟨-, h⟩
    · exact ⟨job', by simp [jobs, ids.jobId, jobId], latest⟩
    · obtain ⟨j, hj', hlj⟩ := L.owned h
      have hne : a.jobId ≠ job.jobId := L.queued_free hj queued h
      exact ⟨j, by rw [jobs, update_of_ne hne, hj'], hlj⟩

theorem staged_encode {att : AttemptRecordV1} (h : att.Staged) :
    (Cjson.encodeAttempt att).Staged := by
  unfold AttemptRecordV1.Staged at h ⊢
  rw [encodeAttempt_phase]
  cases hp : att.phase <;> simp_all [Cjson.encodeAttempt]

theorem sameIds_encode {att : AttemptRecordV1} {job : JobRecordV2} (h : SameIds att job) :
    SameIds (Cjson.encodeAttempt att) job := by
  obtain ⟨h1, h2, h3, h4⟩ := h
  exact ⟨by simpa using h1, by simpa using h2, by simpa using h3, by simpa using h4⟩

/-- **Every effect keeps the linkage.** -/
theorem step (L : Linkage r) {now : Nat} {c : Call} (e : Effect now r r' c) : Linkage r' := by
  cases e with
  | frame jobs attempts => exact L.congr jobs attempts
  | @created job _ entry accepted fresh jobs attempts =>
    refine L.setUnclaimed (Cjson.encodeJob (createdJob job entry)) ?_ rfl (.inl ?_)
      (by simpa [createdJob] using jobs) attempts
    · rintro id att ha hid
      obtain ⟨j, hj, -⟩ := L.owned ha
      simp only [encodeJob_jobId, createdJob] at hid
      simp [hid, fresh] at hj
    · simp [createdJob]
  | @claimed p job job_at jobId workspace target isNew queued live fresh unfenced jobs attempts =>
    refine L.claim (Cjson.encodeJob (claimedJob job p.attemptId))
      (Cjson.encodeAttempt (claimedAttempt now job p)) (by rw [jobId]; exact job_at) queued
      ?_ ?_ ?_ ?_ ?_ ?_ ?_ (by rw [jobId]; exact jobs) (by simpa [claimedAttempt, newAttempt])
    · simpa [claimedAttempt, newAttempt] using fresh
    · simp [claimedJob]
    · simp [claimedJob]
    · simp [claimedJob, claimedAttempt, newAttempt]
    · exact sameIds_encode ⟨by simp [claimedJob, claimedAttempt, newAttempt],
        by simp [claimedJob, claimedAttempt, newAttempt],
        by simp [claimedJob, claimedAttempt, newAttempt],
        by simp [claimedJob, claimedAttempt, newAttempt]⟩
    · exact staged_encode (by simp [AttemptRecordV1.Staged, claimedAttempt, newAttempt])
    · simp [claimedAttempt, newAttempt]
  | @started p job att owns attemptId active phase jobs attempts =>
    have hl := L.owns_latest owns
    have hk : job.jobId = p.jobId := L.job_key owns.job_at
    refine L.rewrite job (Cjson.encodeAttempt (startedAttempt now att))
      (hk ▸ owns.job_at) hl rfl rfl (sameIds_encode ?_) ?_ ?_ (.inl ⟨active, ?_⟩) ?_ ?_
    · exact ⟨hl.ids.jobId, hl.ids.userId, hl.ids.workspaceId, hl.ids.targetId⟩
    · simp [startedAttempt]
    · refine staged_encode ?_
      have hst := L.staged owns.attempt_at
      simp only [AttemptRecordV1.Staged, phase, startedAttempt] at hst ⊢
      exact ⟨by simp, hst.2⟩
    · simp [startedAttempt]
    · rw [jobs, hk, ← owns.job_at, update_eq_self]
    · rw [attempts, attemptId]
  | @reported p rep job att owns attemptId active phase jobs attempts =>
    have hl := L.owns_latest owns
    have hk : job.jobId = p.jobId := L.job_key owns.job_at
    refine L.rewrite (Cjson.encodeJob (reportedJob job))
      (Cjson.encodeAttempt (reportedAttempt now att rep))
      (hk ▸ owns.job_at) hl ?_ ?_ (sameIds_encode ?_) ?_ ?_ (.inr ⟨?_, ?_⟩) (by rw [jobs, hk])
      (by rw [attempts, attemptId])
    · simp [reportedJob]
    · simp [reportedJob]
    · obtain ⟨h1, h2, h3, h4⟩ := hl.ids
      exact ⟨by simpa [reportedJob], by simpa [reportedJob], by simpa [reportedJob],
        by simpa [reportedJob]⟩
    · simp [reportedAttempt]
    · exact staged_encode (by simp [AttemptRecordV1.Staged, reportedAttempt])
    · simp [reportedJob]
    · simp [reportedAttempt]
  | @cancelledActive p job att job_at active attempt_at expected jobId latest phase jobs attempts =>
    have hk : job.jobId = p.jobId := L.job_key job_at
    have ha : att.attemptId = cancelAttemptKey p.expectedAttemptId := L.attempt_key attempt_at
    obtain ⟨j, hj, hl⟩ := L.latest_of_owned attempt_at
    rw [jobId, hk, job_at] at hj
    obtain rfl := Option.some.inj hj
    refine L.rewrite (Cjson.encodeJob (cancelledJob now job p))
      (Cjson.encodeAttempt (cancelledAttempt now att p))
      (hk ▸ job_at) hl ?_ ?_ (sameIds_encode ?_) ?_ ?_ (.inr ⟨?_, ?_⟩) (by rw [jobs, hk])
      (by rw [attempts, ha])
    · simp [cancelledJob]
    · simp [cancelledJob]
    · obtain ⟨h1, h2, h3, h4⟩ := hl.ids
      exact ⟨by simpa [cancelledJob], by simpa [cancelledJob], by simpa [cancelledJob],
        by simpa [cancelledJob]⟩
    · simp [cancelledAttempt]
    · exact staged_encode (by simp [AttemptRecordV1.Staged, cancelledAttempt])
    · simp [cancelledJob]
    · simp [cancelledAttempt]
  | @cancelledQueued p job job_at queued jobs attempts =>
    have hk : job.jobId = p.jobId := L.job_key job_at
    have link := L.linked job_at
    simp only [Linked, queued] at link
    refine L.setUnclaimed (Cjson.encodeJob (cancelledJob now job p)) ?_ ?_ (.inr ⟨?_, ?_⟩)
      (by simpa [cancelledJob, hk] using jobs) attempts
    · intro id att ha
      simpa [cancelledJob, hk] using L.queued_free job_at queued ha
    · simpa [cancelledJob] using link
    · simp [cancelledJob]
    · simp [cancelledJob]
  | @recorded p result mode job att owns jobs attempts =>
    have hl := L.owns_latest owns
    have hk : job.jobId = p.jobId := L.job_key owns.job_at
    refine L.rewrite job (Cjson.encodeAttempt (recordedAttempt now att result))
      (hk ▸ owns.job_at) hl rfl rfl (sameIds_encode ?_) ?_ ?_ ?_ ?_ ?_
    · exact ⟨hl.ids.jobId, hl.ids.userId, hl.ids.workspaceId, hl.ids.targetId⟩
    · simp [recordedAttempt]
    · exact staged_encode (by
        simpa [AttemptRecordV1.Staged, recordedAttempt] using L.staged owns.attempt_at)
    · have link := L.linked owns.job_at
      cases hs : job.status with
      | preparing => simp [Linked, hs] at link
      | queued => simp [Linked, hs, hl.latest] at link
      | active =>
        exact .inl ⟨rfl, by simpa [recordedAttempt] using L.active_phase owns.job_at hs hl⟩
      | terminal =>
        exact .inr ⟨rfl, by simpa [recordedAttempt] using L.terminal_phase owns.job_at hs hl⟩
    · rw [jobs, hk, ← owns.job_at, update_eq_self]
    · rw [attempts, L.attempt_key owns.attempt_at]

theorem scripts_step {a : Nat × Call} (L : Linkage r) (h : scripts.Step r a r') : Linkage r' := by
  obtain rfl : r' = exec a.1 r a.2 := h
  exact L.step (exec_effect a.1 r a.2)

theorem run {l : List (Nat × Call)} (L : Linkage r) (h : scripts.Run r l r') : Linkage r' :=
  h.inv scripts_step L

end Linkage

/-- **The linkage holds of every reachable store.** -/
theorem linkage_reachable {r : Redis} (h : scripts.Reachable r) : Linkage r := by
  refine h.inv ?_ Linkage.scripts_step
  rintro _ rfl
  exact Linkage.empty

/-! ### the attempt a job names is never replaced -/

/-- A job that names an attempt goes on naming it. -/
def KeepsLatest (r r' : Redis) : Prop :=
  ∀ id job aid, r.jobs id = some job → job.latestAttemptId = some aid →
    ∃ job', r'.jobs id = some job' ∧ job'.latestAttemptId = some aid

theorem KeepsLatest.rewrite {r r' : Redis} {k : String} {job job' : JobRecordV2}
    (hj : r.jobs k = some job)
    (latest : job.latestAttemptId = none ∨ job'.latestAttemptId = job.latestAttemptId)
    (jobs : r'.jobs = update r.jobs k (some job')) : KeepsLatest r r' := by
  intro id j aid h hl
  by_cases hid : id = k
  · subst hid
    rw [hj] at h
    obtain rfl := Option.some.inj h
    refine ⟨job', by simp [jobs], ?_⟩
    rcases latest with h0 | h1
    · simp [h0] at hl
    · rw [h1, hl]
  · exact ⟨j, by rw [jobs, update_of_ne hid, h], hl⟩

theorem KeepsLatest.of_eq {r r' : Redis} (jobs : r'.jobs = r.jobs) : KeepsLatest r r' :=
  fun _ job _ h hl => ⟨job, jobs ▸ h, hl⟩

theorem KeepsLatest.trans {r s t : Redis} (h1 : KeepsLatest r s) (h2 : KeepsLatest s t) :
    KeepsLatest r t := by
  intro id job aid h hl
  obtain ⟨job', h', hl'⟩ := h1 id job aid h hl
  exact h2 id job' aid h' hl'

theorem Linkage.keepsLatest {r r' : Redis} (L : Linkage r) {now : Nat} {c : Call}
    (e : Effect now r r' c) : KeepsLatest r r' := by
  cases e with
  | frame jobs | started _ _ _ _ _ _ jobs | recorded _ _ _ jobs => exact .of_eq jobs
  | created entry accepted fresh jobs =>
    intro id j aid h hl
    refine ⟨j, ?_, hl⟩
    rw [jobs, update_of_ne, h]
    rintro rfl
    simp [fresh] at h
  | claimed job job_at jobId workspace target isNew queued live fresh unfenced jobs =>
    have link := L.linked job_at
    simp only [Linked, queued] at link
    exact .rewrite job_at (.inl link) jobs
  | reported job att owns attemptId active phase jobs =>
    exact .rewrite owns.job_at (.inr (by simp [reportedJob])) jobs
  | cancelledActive job att job_at active attempt_at expected jobId latest phase jobs =>
    exact .rewrite job_at (.inr (by simp [cancelledJob])) jobs
  | cancelledQueued job job_at queued jobs =>
    exact .rewrite job_at (.inr (by simp [cancelledJob])) jobs

theorem Linkage.keepsLatest_run {r r' : Redis} {l : List (Nat × Call)} (L : Linkage r)
    (h : scripts.Run r l r') : KeepsLatest r r' := by
  refine h.rel (I := Linkage) (R := KeepsLatest) (fun _ => .of_eq rfl) KeepsLatest.trans
    Linkage.scripts_step ?_ L
  intro s a t hL hs
  obtain rfl : t = exec a.1 s a.2 := hs
  exact hL.keepsLatest (exec_effect a.1 s a.2)

/-! ### deriveHostJobState -/

/-- A job and its latest attempt, read in one step, always have a state. -/
theorem Linkage.derive_ok {r : Redis} (L : Linkage r) {id : String} {job : JobRecordV2}
    (h : r.jobs id = some job) (nowMs : Nat) :
    ∃ state, deriveHostJobState job (latestAttempt r job) nowMs = .ok state := by
  have link := L.linked h
  unfold Linked at link
  unfold deriveHostJobState latestAttempt
  cases hs : job.status <;> simp only [hs] at link ⊢
  · split_ifs <;> exact ⟨_, rfl⟩
  · obtain ⟨att, hl, hp⟩ := link
    simp only [hl.latest, Option.bind_some, hl.stored]
    cases hph : att.phase with
    | claimed => exact ⟨_, rfl⟩
    | running => exact ⟨_, rfl⟩
    | terminal => exact absurd hph hp
  · rcases link with ⟨att, hl, hp⟩ | ⟨h0, hc⟩
    · simp only [hl.latest, Option.bind_some, hl.stored, hp]
      exact ⟨_, rfl⟩
    · simp only [h0, Option.bind_none, hc, if_true]
      exact ⟨_, rfl⟩

/-- **Job and attempt linkage.** In every reachable store: a queued job names
no attempt and no attempt names it; an active job names a stored claimed or
running attempt with its ids; a terminal job names a stored terminal attempt
with a report, or has no attempt and a cancel record; no job is preparing; an
attempt names at most one job and a job is named by at most one attempt; a
job's attempt, once set, is never replaced; and the state derived from a job
and its attempt read together exists. -/
theorem job_attempt_linkage {r : Redis} (h : scripts.Reachable r) :
    (∀ id job, r.jobs id = some job → job.status = .queued →
      job.latestAttemptId = none ∧ ∀ aid att, r.attempts aid = some att → att.jobId ≠ job.jobId) ∧
    (∀ id job, r.jobs id = some job → job.status = .active →
      ∃ aid att, job.latestAttemptId = some aid ∧ r.attempts aid = some att ∧ SameIds att job ∧
        (att.phase = .claimed ∨ att.phase = .running)) ∧
    (∀ id job, r.jobs id = some job → job.status = .terminal →
      (∃ aid att, job.latestAttemptId = some aid ∧ r.attempts aid = some att ∧
        att.phase = .terminal ∧ att.report ≠ none) ∨
      job.latestAttemptId = none ∧ job.cancel ≠ none ∧
        ∀ aid att, r.attempts aid = some att → att.jobId ≠ job.jobId) ∧
    (∀ id job, r.jobs id = some job → job.status ≠ .preparing) ∧
    (∀ aid bid a b, r.attempts aid = some a → r.attempts bid = some b → a.jobId = b.jobId →
      aid = bid) ∧
    (∀ r' l, scripts.Run r l r' → KeepsLatest r r') ∧
    (∀ id job nowMs, r.jobs id = some job →
      ∃ state, deriveHostJobState job (latestAttempt r job) nowMs = .ok state) := by
  have L := linkage_reachable h
  refine ⟨?_, ?_, ?_, ?_, ?_, ?_, ?_⟩
  · intro id job hj hs
    have link := L.linked hj
    simp only [Linked, hs] at link
    exact ⟨link, fun aid att ha => L.job_key hj ▸ L.queued_free hj hs ha⟩
  · intro id job hj hs
    have link := L.linked hj
    simp only [Linked, hs] at link
    obtain ⟨att, hl, hp⟩ := link
    refine ⟨att.attemptId, att, hl.latest, hl.stored, hl.ids, ?_⟩
    cases hph : att.phase <;> simp_all
  · intro id job hj hs
    have link := L.linked hj
    simp only [Linked, hs] at link
    rcases link with ⟨att, hl, hp⟩ | ⟨h0, hc⟩
    · have hst := L.staged hl.stored
      simp only [AttemptRecordV1.Staged, hp] at hst
      exact .inl ⟨att.attemptId, att, hl.latest, hl.stored, hp, hst⟩
    · refine .inr ⟨h0, by rintro hn; simp [hn] at hc, ?_⟩
      rintro aid att ha hid
      obtain ⟨j, hj', hlj⟩ := L.owned ha
      rw [hid, L.job_key hj, hj] at hj'
      obtain rfl := Option.some.inj hj'
      simp [h0] at hlj
  · intro id job hj hs
    have link := L.linked hj
    simp [Linked, hs] at link
  · intro aid bid a b ha hb hab
    exact L.unique ha hb hab
  · intro r' l hr
    exact L.keepsLatest_run hr
  · intro id job nowMs hj
    exact L.derive_ok hj nowMs

/-! ### a claimed job -/

def sampleJob : JobRecordV2 :=
  { schemaVersion := 6
    jobId := "job-00000000-0000-4000-8000-000000000001"
    requestId := "00000000-0000-4000-8000-00000000000a"
    userId := "usr_1"
    workspaceId := "ws_1"
    targetId := "tgt_00000000-0000-4000-8000-000000000002"
    prompt := "p"
    acceptance := "a"
    resourceId := none
    executionTimeoutSeconds := 60
    resultTarget := .none
    requestDigest := "0000000000000000000000000000000000000000000000000000000000000000"
    status := .preparing
    streamEntryId := none
    latestAttemptId := none
    createdAtMs := 1000
    claimDeadlineMs := 604801000
    cancel := none }

def sampleClaim : ClaimParams :=
  { jobId := sampleJob.jobId
    expectedWorkspaceId := sampleJob.workspaceId
    expectedTargetId := sampleJob.targetId
    deviceId := "dev_00000000-0000-4000-8000-000000000003"
    targetBindingId := "dtb_00000000-0000-4000-8000-000000000004"
    attemptId := "00000000-0000-4000-8000-000000000005"
    claimTokenSha256 := "1111111111111111111111111111111111111111111111111111111111111111"
    isReplayOnly := false }

def claimedCalls : List (Nat × Call) :=
  [(1000, .create sampleJob sampleJob.requestId), (2000, .claim sampleClaim)]

/-- The record of `sampleJob` in the store `claimedCalls` leave. -/
def claimedSample : JobRecordV2 :=
  { sampleJob with
    status := .active, streamEntryId := some "1000-0", latestAttemptId := some sampleClaim.attemptId }

set_option maxRecDepth 10000 in
theorem replay_claimed_jobs :
    (replay claimedCalls).jobs sampleJob.jobId = some claimedSample := by decide +kernel

theorem job_attempt_linkage_claimed :
    ∃ aid att, claimedSample.latestAttemptId = some aid ∧
      (replay claimedCalls).attempts aid = some att ∧ SameIds att claimedSample ∧
      (att.phase = .claimed ∨ att.phase = .running) :=
  (job_attempt_linkage (replay_reachable claimedCalls)).2.1 _ _ replay_claimed_jobs rfl

end Ceo.Jobs
