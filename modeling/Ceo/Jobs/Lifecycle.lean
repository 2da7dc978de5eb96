import Ceo.Jobs.Linkage
import Mathlib.Logic.Relation

/-!
# The life of a job

What the store is for, seen from one job: it is queued, claimed by one
attempt, run, and ended once; or withdrawn before any claim. `stageOf` reads
the stage of a job off the two record families, and `stage_step` says the
scripts move every job along `Stage.Next` or leave it where it is.
-/

namespace Ceo.Jobs

open Ceo.Lib Function

inductive Stage where
  | absent
  | queued
  | claimed (attempt : String)
  | running (attempt : String)
  | ended (attempt : Option String) (status : ExecutionStatus)
  deriving DecidableEq, Repr

namespace Stage

inductive Next : Stage → Stage → Prop where
  | create : Next absent queued
  | claim (a : String) : Next queued (claimed a)
  | withdraw : Next queued (ended none .cancelled)
  | start (a : String) : Next (claimed a) (running a)
  | endClaimed (a : String) (s : ExecutionStatus) : Next (claimed a) (ended (some a) s)
  | endRunning (a : String) (s : ExecutionStatus) : Next (running a) (ended (some a) s)

def Later : Stage → Stage → Prop := Relation.ReflTransGen Next

def isEnded : Stage → Bool
  | ended _ _ => true
  | _ => false

/-- The attempt that has the job. -/
def attempt : Stage → Option String
  | claimed a | running a => some a
  | ended a _ => a
  | _ => none

theorem Later.refl (s : Stage) : Later s s := Relation.ReflTransGen.refl

theorem Later.trans {s t u : Stage} (h1 : Later s t) (h2 : Later t u) : Later s u :=
  Relation.ReflTransGen.trans h1 h2

theorem Later.of_step {s t : Stage} (h : t = s ∨ Next s t) : Later s t := by
  rcases h with rfl | h
  · exact .refl t
  · exact Relation.ReflTransGen.single h

/-- A job ends once. -/
theorem Later.of_ended {a : Option String} {s : ExecutionStatus} {t : Stage}
    (h : Later (ended a s) t) : t = ended a s := by
  induction h with
  | refl => rfl
  | tail _ hn ih =>
    subst ih
    cases hn

theorem Later.of_running {a : String} {t : Stage} (h : Later (running a) t) :
    t = running a ∨ ∃ s, t = ended (some a) s := by
  induction h with
  | refl => exact .inl rfl
  | tail _ hn ih =>
    rcases ih with rfl | ⟨s, rfl⟩
    · cases hn with
      | endRunning a s => exact .inr ⟨s, rfl⟩
    · cases hn

theorem Later.of_claimed {a : String} {t : Stage} (h : Later (claimed a) t) :
    t = claimed a ∨ t = running a ∨ ∃ s, t = ended (some a) s := by
  induction h with
  | refl => exact .inl rfl
  | tail _ hn ih =>
    rcases ih with rfl | rfl | ⟨s, rfl⟩
    · cases hn with
      | start a => exact .inr (.inl rfl)
      | endClaimed a s => exact .inr (.inr ⟨s, rfl⟩)
    · cases hn with
      | endRunning a s => exact .inr (.inr ⟨s, rfl⟩)
    · cases hn

end Stage

/-! ### reading the stage off the store -/

/-- The stage a job record and the record of its latest attempt are in. -/
def stage (job : JobRecordV2) (attempt : Option AttemptRecordV1) : Stage :=
  match job.status, attempt with
  | .preparing, _ | .queued, _ => .queued
  | .active, none => .queued
  | .active, some att => if att.phase = .claimed then .claimed att.attemptId else .running att.attemptId
  | .terminal, att => .ended job.latestAttemptId ((jobExecutionStatusView job att).getD .cancelled)

def stageOf (r : Redis) (id : String) : Stage :=
  match r.jobs id with
  | none => .absent
  | some job => stage job (latestAttempt r job)

theorem stageOf_some {r : Redis} {id : String} {job : JobRecordV2} (h : r.jobs id = some job) :
    stageOf r id = stage job (latestAttempt r job) := by simp [stageOf, h]

theorem stageOf_none {r : Redis} {id : String} (h : r.jobs id = none) :
    stageOf r id = .absent := by simp [stageOf, h]

theorem Latest.latestAttempt {r : Redis} {job : JobRecordV2} {att : AttemptRecordV1}
    (h : Latest r job att) : latestAttempt r job = some att := by
  simp [Jobs.latestAttempt, h.latest, h.stored]

theorem stage_claimed {job : JobRecordV2} {att : AttemptRecordV1} (hs : job.status = .active)
    (hp : att.phase = .claimed) : stage job (some att) = .claimed att.attemptId := by
  simp [stage, hs, hp]

theorem stage_running {job : JobRecordV2} {att : AttemptRecordV1} (hs : job.status = .active)
    (hp : att.phase = .running) : stage job (some att) = .running att.attemptId := by
  simp [stage, hs, hp]

theorem stage_queued {job : JobRecordV2} (hs : job.status = .queued) (o : Option AttemptRecordV1) :
    stage job o = .queued := by
  simp [stage, hs]

theorem stage_terminal {job : JobRecordV2} (hs : job.status = .terminal)
    (o : Option AttemptRecordV1) :
    stage job o = .ended job.latestAttemptId ((jobExecutionStatusView job o).getD .cancelled) := by
  simp [stage, hs]

/-- Ending a live job, from either phase of its attempt. -/
theorem stage_end {job job' : JobRecordV2} {att : AttemptRecordV1} (active : job.status = .active)
    (phase : att.phase = .claimed ∨ att.phase = .running) (ended : job'.status = .terminal)
    (latest : job'.latestAttemptId = some att.attemptId) (o : Option AttemptRecordV1) :
    (stage job (some att)).Next (stage job' o) := by
  rw [stage_terminal ended, latest]
  rcases phase with hp | hp
  · rw [stage_claimed active hp]
    exact .endClaimed _ _
  · rw [stage_running active hp]
    exact .endRunning _ _

/-- A rewritten attempt is no other job's. -/
theorem Linkage.latestAttempt_of_ne {r r' : Redis} (L : Linkage r) {id aid : String}
    {job : JobRecordV2} {new : AttemptRecordV1} (hj : r.jobs id = some job)
    (foreign : ∀ att, r.attempts aid = some att → att.jobId ≠ id)
    (attempts : r'.attempts = update r.attempts aid (some new)) :
    latestAttempt r' job = latestAttempt r job := by
  unfold latestAttempt
  cases hl : job.latestAttemptId with
  | none => rfl
  | some b =>
    have hne : b ≠ aid := by
      rintro rfl
      obtain ⟨att, rfl, h⟩ := L.names hj hl
      exact foreign att h.stored (by rw [h.ids.jobId, L.job_key hj])
    simp [attempts, update_of_ne hne]

/-! ### the refinement -/

section refinement

variable {r r' : Redis}

/-- A rewritten pair of records moves its own job and no other. -/
theorem stage_rewrite (L : Linkage r) {job : JobRecordV2} {att : AttemptRecordV1}
    (job' : JobRecordV2) (att' : AttemptRecordV1) (hj : r.jobs job.jobId = some job)
    (hl : Latest r job att) (latest : job'.latestAttemptId = job.latestAttemptId)
    (jobs : r'.jobs = update r.jobs job.jobId (some job'))
    (attempts : r'.attempts = update r.attempts att.attemptId (some att'))
    (move : stage job' (some att') = stage job (some att) ∨
      (stage job (some att)).Next (stage job' (some att'))) (id : String) :
    stageOf r' id = stageOf r id ∨ (stageOf r id).Next (stageOf r' id) := by
  by_cases hid : id = job.jobId
  · subst hid
    have h' : r'.jobs job.jobId = some job' := by simp [jobs]
    have ha' : latestAttempt r' job' = some att' := by
      simp [latestAttempt, latest, hl.latest, attempts]
    rw [stageOf_some hj, stageOf_some h', hl.latestAttempt, ha']
    exact move
  · left
    unfold stageOf
    rw [jobs, update_of_ne hid]
    cases hk : r.jobs id with
    | none => rfl
    | some j =>
      dsimp only
      rw [L.latestAttempt_of_ne hk ?_ attempts]
      rintro a ha rfl
      rw [hl.stored] at ha
      obtain rfl := Option.some.inj ha
      exact hid hl.ids.jobId

theorem stage_setUnclaimed (job' : JobRecordV2)
    (jobs : r'.jobs = update r.jobs job'.jobId (some job')) (attempts : r'.attempts = r.attempts)
    (move : (stageOf r job'.jobId).Next (stageOf r' job'.jobId)) (id : String) :
    stageOf r' id = stageOf r id ∨ (stageOf r id).Next (stageOf r' id) := by
  by_cases hid : id = job'.jobId
  · subst hid
    exact .inr move
  · left
    simp only [stageOf, jobs, update_of_ne hid, latestAttempt, attempts]

theorem encodeAttempt_report (a : AttemptRecordV1) :
    (Cjson.encodeAttempt a).report = a.report.map Cjson.encodeReport := by
  simp only [Cjson.encodeAttempt]

/-- **The scripts refine the life of a job**: a call leaves every job in its
stage, or moves it one step on. -/
theorem stage_step (L : Linkage r) {now : Nat} {c : Call} (e : Effect now r r' c) (id : String) :
    stageOf r' id = stageOf r id ∨ (stageOf r id).Next (stageOf r' id) := by
  cases e with
  | frame jobs attempts =>
    left
    simp only [stageOf, jobs, latestAttempt, attempts]
  | @created job _ entry accepted fresh jobs attempts =>
    refine stage_setUnclaimed (Cjson.encodeJob (createdJob job entry))
      (by simpa [createdJob] using jobs) attempts ?_ id
    have h0 : stageOf r job.jobId = .absent := stageOf_none fresh
    have h1 : stageOf r' job.jobId = .queued := by
      rw [stageOf_some (by rw [jobs, update_self])]
      exact stage_queued (by simp [createdJob]) _
    simpa [createdJob, h0, h1] using Stage.Next.create
  | @claimed p job job_at jobId workspace target isNew queued live fresh unfenced jobs attempts =>
    by_cases hid : id = p.jobId
    · subst hid
      right
      rw [stageOf_some job_at, stage_queued queued, stageOf_some (by rw [jobs, update_self])]
      have ha : latestAttempt r' (Cjson.encodeJob (claimedJob job p.attemptId)) =
          some (Cjson.encodeAttempt (claimedAttempt now job p)) := by
        simp [latestAttempt, claimedJob, attempts]
      rw [ha, stage_claimed (by simp [claimedJob]) (by simp [claimedAttempt, newAttempt])]
      exact .claim _
    · left
      unfold stageOf
      rw [jobs, update_of_ne hid]
      cases hk : r.jobs id with
      | none => rfl
      | some j =>
        dsimp only
        rw [L.latestAttempt_of_ne hk ?_ attempts]
        intro a ha
        simp [fresh] at ha
  | @started p job att owns attemptId active phase jobs attempts =>
    have hl := L.owns_latest owns
    have hk : job.jobId = p.jobId := L.job_key owns.job_at
    refine stage_rewrite L job (Cjson.encodeAttempt (startedAttempt now att)) (hk ▸ owns.job_at) hl
      rfl ?_ (by rw [attempts, attemptId]) (.inr ?_) id
    · rw [jobs, hk, ← owns.job_at, update_eq_self]
    · rw [stage_claimed active phase, stage_running active (by simp [startedAttempt])]
      simpa [startedAttempt] using Stage.Next.start att.attemptId
  | @reported p rep job att owns attemptId active phase jobs attempts =>
    have hl := L.owns_latest owns
    have hk : job.jobId = p.jobId := L.job_key owns.job_at
    refine stage_rewrite L (Cjson.encodeJob (reportedJob job))
      (Cjson.encodeAttempt (reportedAttempt now att rep)) (hk ▸ owns.job_at) hl
      (by simp [reportedJob]) (hk ▸ jobs) (attemptId ▸ attempts) (.inr ?_) id
    exact stage_end active (phase.imp_left And.left) (by simp [reportedJob])
      (by simp [reportedJob, hl.latest]) _
  | @cancelledActive p job att job_at active attempt_at expected jobId latest phase jobs attempts =>
    have hk : job.jobId = p.jobId := L.job_key job_at
    have ha : att.attemptId = cancelAttemptKey p.expectedAttemptId := L.attempt_key attempt_at
    obtain ⟨j, hj, hl⟩ := L.latest_of_owned attempt_at
    rw [jobId, hk, job_at] at hj
    obtain rfl := Option.some.inj hj
    refine stage_rewrite L (Cjson.encodeJob (cancelledJob now job p))
      (Cjson.encodeAttempt (cancelledAttempt now att p)) (hk ▸ job_at) hl
      (by simp [cancelledJob]) (hk ▸ jobs) (ha ▸ attempts) (.inr ?_) id
    exact stage_end active (phase.imp_right And.left) (by simp [cancelledJob])
      (by simp [cancelledJob, latest]) _
  | @cancelledQueued p job job_at queued jobs attempts =>
    have hk : job.jobId = p.jobId := L.job_key job_at
    have link := L.linked job_at
    simp only [Linked, queued] at link
    refine stage_setUnclaimed (Cjson.encodeJob (cancelledJob now job p))
      (by simpa [cancelledJob, hk] using jobs) attempts ?_ id
    have h0 : stageOf r p.jobId = .queued := by rw [stageOf_some job_at, stage_queued queued]
    have h1 : stageOf r' p.jobId = .ended none .cancelled := by
      rw [stageOf_some (by rw [jobs, update_self]), stage_terminal (by simp [cancelledJob])]
      simp [cancelledJob, latestAttempt, link, jobExecutionStatusView, Cjson.encodeJob]
    simpa [cancelledJob, hk, h0, h1] using Stage.Next.withdraw
  | @recorded p result mode job att owns jobs attempts =>
    have hl := L.owns_latest owns
    have hk : job.jobId = p.jobId := L.job_key owns.job_at
    refine stage_rewrite L job (Cjson.encodeAttempt (recordedAttempt now att result))
      (hk ▸ owns.job_at) hl rfl ?_ ?_ (.inl ?_) id
    · rw [jobs, hk, ← owns.job_at, update_eq_self]
    · rw [attempts, L.attempt_key owns.attempt_at]
    · cases hs : job.status <;>
        simp [stage, hs, recordedAttempt, jobExecutionStatusView, encodeAttempt_report]
      cases att.report <;> simp [Cjson.encodeReport]

theorem later_run {l : List (Nat × Call)} (L : Linkage r) (h : scripts.Run r l r') (id : String) :
    (stageOf r id).Later (stageOf r' id) := by
  refine h.rel (I := Linkage) (R := fun s t => (stageOf s id).Later (stageOf t id))
    (fun s => .refl _) Stage.Later.trans Linkage.scripts_step ?_ L
  intro s a t hL hs
  obtain rfl : t = exec a.1 s a.2 := hs
  exact .of_step (stage_step hL (exec_effect a.1 s a.2) id)

end refinement

end Ceo.Jobs
