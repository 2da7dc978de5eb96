import Ceo.Jobs.Coordinator
import Ceo.Jobs.Readers

/-!
# A completed resource job has its result

The report script knows nothing of results: `reportJob` asks for one on an
attempt it read before, and `submitJobResult` matches the resource against a
job it read before. Both are still right at the script, since a job's resource
and target never change and an attempt never loses its result.
-/

namespace Ceo.Jobs

open Ceo.Lib Function

/-! ### what a job and an attempt never lose -/

/-- The job is there, with this target and this resource. -/
def JobIs (id : String) (target : ResultTarget) (resourceId : Option String) (r : Redis) : Prop :=
  ∃ job, r.jobs id = some job ∧ job.resultTarget = target ∧ job.resourceId = resourceId

/-- The attempt is there, and has a result. -/
def HasResult (id : String) (r : Redis) : Prop :=
  ∃ att, r.attempts id = some att ∧ att.result ≠ none

section keep

variable {r r' : Redis} {k : String} {id : String}

theorem JobIs.write {t : ResultTarget} {res : Option String} {job job' : JobRecordV2}
    (h : JobIs id t res r) (hj : r.jobs k = some job)
    (jobs : r'.jobs = update r.jobs k (some (Cjson.encodeJob job')))
    (same : job'.resultTarget = job.resultTarget ∧ job'.resourceId = job.resourceId) :
    JobIs id t res r' := by
  obtain ⟨j, hid, ht, hres⟩ := h
  by_cases hk : id = k
  · subst hk
    rw [hj] at hid
    obtain rfl := Option.some.inj hid
    exact ⟨_, by rw [jobs, update_self], by simpa [Cjson.encodeJob, same.1], by
      simpa [Cjson.encodeJob, same.2]⟩
  · exact ⟨j, by rw [jobs, update_of_ne hk, hid], ht, hres⟩

theorem JobIs.of_eq {t : ResultTarget} {res : Option String} (h : JobIs id t res r)
    (jobs : r'.jobs = r.jobs) : JobIs id t res r' := by
  obtain ⟨j, hid, hj⟩ := h
  exact ⟨j, jobs ▸ hid, hj⟩

theorem JobIs.step {t : ResultTarget} {res : Option String} {now : Nat} {c : Call}
    (h : JobIs id t res r) (e : Effect now r r' c) : JobIs id t res r' := by
  cases e with
  | frame jobs | started _ _ _ _ _ _ jobs | recorded _ _ _ jobs => exact h.of_eq jobs
  | @created job _ entry accepted fresh jobs =>
    obtain ⟨j, hid, hj⟩ := h
    refine ⟨j, ?_, hj⟩
    rw [jobs, update_of_ne, hid]
    rintro rfl
    simp [fresh] at hid
  | claimed job job_at jobId workspace target isNew queued live fresh unfenced jobs =>
    exact h.write job_at jobs ⟨rfl, rfl⟩
  | reported job att owns attemptId active phase jobs => exact h.write owns.job_at jobs ⟨rfl, rfl⟩
  | cancelledActive job att job_at active attempt_at expected jobId latest phase jobs =>
    exact h.write job_at jobs ⟨rfl, rfl⟩
  | cancelledQueued job job_at queued jobs => exact h.write job_at jobs ⟨rfl, rfl⟩

theorem HasResult.write {att att' : AttemptRecordV1} (h : HasResult id r)
    (ha : r.attempts k = some att)
    (attempts : r'.attempts = update r.attempts k (some (Cjson.encodeAttempt att')))
    (keeps : att.result ≠ none → att'.result ≠ none) : HasResult id r' := by
  obtain ⟨a, hid, hres⟩ := h
  by_cases hk : id = k
  · subst hk
    rw [ha] at hid
    obtain rfl := Option.some.inj hid
    exact ⟨_, by rw [attempts, update_self], by simpa [Cjson.encodeAttempt] using keeps hres⟩
  · exact ⟨a, by rw [attempts, update_of_ne hk, hid], hres⟩

theorem HasResult.of_eq (h : HasResult id r) (attempts : r'.attempts = r.attempts) :
    HasResult id r' := by
  obtain ⟨a, hid, ha⟩ := h
  exact ⟨a, attempts ▸ hid, ha⟩

theorem HasResult.step {now : Nat} {c : Call} (h : HasResult id r) (e : Effect now r r' c) :
    HasResult id r' := by
  cases e with
  | frame _ attempts | created _ _ _ _ attempts | cancelledQueued _ _ _ _ attempts =>
    exact h.of_eq attempts
  | @claimed p job job_at jobId workspace target isNew queued live fresh unfenced jobs attempts =>
    obtain ⟨a, hid, ha⟩ := h
    refine ⟨a, ?_, ha⟩
    rw [attempts, update_of_ne, hid]
    rintro rfl
    simp [fresh] at hid
  | started job att owns attemptId active phase jobs attempts =>
    exact h.write owns.attempt_at attempts fun h => h
  | reported job att owns attemptId active phase jobs attempts =>
    exact h.write owns.attempt_at attempts fun h => h
  | cancelledActive job att job_at active attempt_at expected jobId latest phase jobs attempts =>
    exact h.write attempt_at attempts fun h => h
  | recorded job att owns jobs attempts =>
    exact h.write owns.attempt_at attempts fun _ => by simp [recordedAttempt]

end keep

/-! ### the invariant -/

/-- An attempt's result is for the job's resource, and no completed report of a resource job is
without one. -/
structure Fits (att : AttemptRecordV1) (target : ResultTarget) (resourceId : Option String) :
    Prop where
  own : ∀ res, att.result = some res → resourceId = some res.resourceId
  backed : ∀ rep, att.report = some rep → rep.executionStatus = .completed →
    target = .resource → att.result ≠ none

theorem Fits.encode {att : AttemptRecordV1} {t : ResultTarget} {res : Option String}
    (h : Fits att t res) : Fits (Cjson.encodeAttempt att) t res := by
  refine ⟨fun x hx => ?_, fun rep hr hc ht => ?_⟩
  · simp only [Cjson.encodeAttempt, Option.map_eq_some_iff] at hx
    obtain ⟨y, hy, rfl⟩ := hx
    exact h.own y hy
  · simp only [Cjson.encodeAttempt, Option.map_eq_some_iff] at hr
    obtain ⟨y, hy, rfl⟩ := hr
    simpa [Cjson.encodeAttempt] using h.backed y hy hc ht

def Managed (r : Redis) : Prop :=
  ∀ id att, r.attempts id = some att →
    ∃ t res, JobIs att.jobId t res r ∧ Fits att t res

/-- What a report and a result have to find in the store for `Managed` to go on. -/
def Backed (r : Redis) : Call → Prop
  | .report p rep => rep.executionStatus = .completed →
      HasResult p.attemptId r ∨ ∃ res, JobIs p.jobId .none res r
  | .recordResult p result _ => ∃ t, JobIs p.jobId t (some result.resourceId) r
  | _ => True

theorem JobIs.unique {id : String} {t t' : ResultTarget} {res res' : Option String} {r : Redis}
    (h : JobIs id t res r) (h' : JobIs id t' res' r) : t = t' ∧ res = res' := by
  obtain ⟨j, hj, ht, hr⟩ := h
  obtain ⟨j', hj', ht', hr'⟩ := h'
  rw [hj] at hj'
  obtain rfl := Option.some.inj hj'
  exact ⟨ht.symm.trans ht', hr.symm.trans hr'⟩

namespace Managed

variable {r r' : Redis} {k : String}

theorem empty : Managed Redis.empty := by
  intro id att h
  simp [Redis.empty] at h

/-- One attempt is written; the job of it is as it was. -/
theorem write (M : Managed r) (keep : ∀ id t res, JobIs id t res r → JobIs id t res r')
    {a : AttemptRecordV1}
    (attempts : r'.attempts = update r.attempts k (some (Cjson.encodeAttempt a)))
    (ha : ∃ t res, JobIs a.jobId t res r' ∧ Fits a t res) : Managed r' := by
  intro id att h
  rw [attempts, update_eq_some] at h
  rcases h with ⟨-, rfl⟩ | ⟨-, h⟩
  · obtain ⟨t, res, hj, hf⟩ := ha
    exact ⟨t, res, by simpa using hj, hf.encode⟩
  · obtain ⟨t, res, hj, hf⟩ := M id att h
    exact ⟨t, res, keep _ _ _ hj, hf⟩

/-- **Every backed call keeps the invariant.** -/
theorem step (M : Managed r) (L : Linkage r) {now : Nat} {c : Call} (e : Effect now r r' c)
    (hb : Backed r c) : Managed r' := by
  have keep : ∀ id t res, JobIs id t res r → JobIs id t res r' := fun _ _ _ h => h.step e
  have frame (attempts : r'.attempts = r.attempts) : Managed r' := by
    intro id att h
    obtain ⟨t, res, hj, hf⟩ := M id att (attempts ▸ h)
    exact ⟨t, res, keep _ _ _ hj, hf⟩
  cases e with
  | frame _ attempts | created _ _ _ _ attempts | cancelledQueued _ _ _ _ attempts =>
    exact frame attempts
  | @claimed p job job_at jobId workspace target isNew queued live fresh unfenced jobs attempts =>
    refine M.write keep attempts ⟨job.resultTarget, job.resourceId, ?_, ?_⟩
    · exact keep _ _ _ ⟨job, by simpa [claimedAttempt, newAttempt, jobId] using job_at, rfl, rfl⟩
    · exact ⟨fun res h => (by cases h), fun rep h => (by cases h)⟩
  | started job att owns attemptId active phase jobs attempts =>
    obtain ⟨t, res, hj, hf⟩ := M _ _ owns.attempt_at
    exact M.write keep attempts ⟨t, res, keep _ _ _ hj, hf.own, hf.backed⟩
  | @reported p rep job att owns attemptId active phase jobs attempts =>
    obtain ⟨t, res, hj, hf⟩ := M _ _ owns.attempt_at
    refine M.write keep attempts ⟨t, res, keep _ _ _ hj, hf.own, ?_⟩
    rintro x hx hc ht
    cases hx
    rcases hb hc with ⟨a, ha, hres⟩ | ⟨res', hn⟩
    · rw [owns.attempt_at] at ha
      obtain rfl := Option.some.inj ha
      exact hres
    · -- the service read another target off the job: not a resource job after all
      rw [owns.jobId, L.job_key owns.job_at] at hj
      cases (hj.unique hn).1.symm.trans ht
  | @cancelledActive p job att job_at active attempt_at expected jobId latest phase jobs attempts =>
    obtain ⟨t, res, hj, hf⟩ := M _ _ attempt_at
    refine M.write keep attempts ⟨t, res, keep _ _ _ hj, hf.own, ?_⟩
    rintro x hx hc
    cases hx
    cases hc
  | @recorded p result mode job att owns jobs attempts =>
    obtain ⟨t, hj⟩ := hb
    rw [← L.job_key owns.job_at, ← owns.jobId] at hj
    refine M.write keep attempts ⟨t, _, keep _ _ _ hj, fun res h => ?_, fun _ _ _ _ => ?_⟩
    · cases h
      rfl
    · simp [recordedAttempt]

end Managed

/-! ### the methods ask for what the scripts do not -/

/-- Every call is backed, whoever makes it. -/
def managed : Contract Redis Ask Choice (Nat × Call) where
  policy := ⟨fun _ _ _ => True, fun _ _ => True, fun _ => True, fun r a => Backed r a.2⟩
  inv r := Linkage r ∧ Managed r
  needs r
    | .recordJobResult p result mode => Backed r (.recordResult p result mode)
    | .reportJob p rep => Backed r (.report p rep)
    | _ => True

section methods

variable {h : Digests} {s : Redis}

theorem stable_of_step {A : Redis → Prop}
    (step : ∀ {r r' now c}, A r → Effect now r r' c → A r') :
    (coordinator h).Stable managed.policy A := by
  rintro r a r' hA - hr
  cases hr
  exact step hA (exec_effect _ _ _)

abbrev MethodSafe (h : Digests) (m : Method) (s : Redis) : Prop :=
  Safe (coordinator h).toSurroundings managed (fun _ _ => True) m s

theorem safe_fail (e : V2Error) : MethodSafe h (JobCoordinatorV2.fail e) s := trivial

theorem safe_replyAt (reply : Nat → MethodReply) (ms : Nat) :
    MethodSafe h (JobCoordinatorV2.replyAt reply ms) s := by
  unfold JobCoordinatorV2.replyAt
  split <;> trivial

theorem safe_recordSubmitted {q : SubmitRequest} {tx : ManagedCommit} {t : ResultTarget}
    (hj : JobIs q.jobId t (some q.result.resourceId) s) :
    MethodSafe h (JobCoordinatorV2.recordSubmitted h q tx) s := by
  intro s₁ h₁ _
  have hj₁ := (stable_of_step JobIs.step).rely h₁ hj
  refine ⟨trivial, fun x at_ s₁' _ hx _ => ?_⟩
  cases x <;> cases hx
  intro s₂ h₂ _
  refine ⟨⟨t, (stable_of_step JobIs.step).rely h₂ hj₁⟩, fun x answer s₃ _ _ _ => ?_⟩
  rcases answer with e | ⟨_ | _⟩
  · exact safe_fail e
  · exact safe_replyAt _ _
  · exact safe_replyAt _ _

theorem safe_applySubmitted {q : SubmitRequest} {t : ResultTarget}
    (hj : JobIs q.jobId t (some q.result.resourceId) s) :
    MethodSafe h (JobCoordinatorV2.applySubmitted h q) s := by
  intro s₁ h₁ _
  have hj₁ := (stable_of_step JobIs.step).rely h₁ hj
  refine ⟨trivial, fun x answer s₁' _ hx _ => ?_⟩
  cases x <;> cases hx
  cases answer with
  | error e => trivial
  | ok tx => exact safe_recordSubmitted hj₁

theorem safe_submitFor {q : SubmitRequest} {t : ResultTarget} (attempt : AttemptRecordV1)
    (hj : JobIs q.jobId t (some q.result.resourceId) s) :
    MethodSafe h (JobCoordinatorV2.submitFor h q attempt) s := by
  unfold JobCoordinatorV2.submitFor
  by_cases hid : attempt.jobId ≠ q.jobId
  · rw [if_pos hid]
    exact safe_fail _
  by_cases hd : attempt.deviceId ≠ q.deviceId
  · rw [if_neg hid, if_pos hd]
    exact safe_fail _
  by_cases ht : attempt.claimTokenSha256 ≠ h.sha256 q.claimToken
  · rw [if_neg hid, if_neg hd, if_pos ht]
    exact safe_fail _
  rw [if_neg hid, if_neg hd, if_neg ht]
  split
  · exact safe_applySubmitted hj
  split_ifs
  · intro s₁ _ _
    exact ⟨trivial, fun x ms s₂ _ _ _ => safe_replyAt _ _⟩
  · exact safe_fail _
  · exact safe_applySubmitted hj

theorem safe_submitJobResult (q : SubmitRequest) :
    MethodSafe h (JobCoordinatorV2.submitJobResult h q) s := by
  unfold JobCoordinatorV2.submitJobResult
  split_ifs
  · exact safe_fail _
  · exact safe_fail _
  · exact safe_fail _
  · exact safe_fail _
  intro s₁ _ _
  refine ⟨trivial, fun x answer s₁' _ hx _ => ?_⟩
  cases x <;> cases hx
  rcases hr : getJob s₁ q.jobId with e | ⟨_ | job⟩
  · exact safe_fail e
  · exact safe_fail _
  show MethodSafe h (if job.resultTarget ≠ .resource then _ else _) s₁
  split_ifs with ht hres
  · exact safe_fail _
  · exact safe_fail _
  rw [not_not] at hres
  have hj : JobIs q.jobId job.resultTarget (some q.result.resourceId) s₁ :=
    ⟨job, getJob_stored hr, rfl, hres⟩
  intro s₂ h₂ _
  have hj₂ := (stable_of_step JobIs.step).rely h₂ hj
  refine ⟨trivial, fun x answer s₂' _ hx _ => ?_⟩
  cases x <;> cases hx
  rcases getAttempt s₂ q.attemptId with e | ⟨_ | attempt⟩
  · exact safe_fail e
  · exact safe_fail _
  · exact safe_submitFor attempt hj₂

theorem safe_sendReport {q : ReportRequest}
    (hq : q.report.executionStatus = .completed →
      HasResult q.attemptId s ∨ ∃ res, JobIs q.jobId .none res s) :
    MethodSafe h (JobCoordinatorV2.sendReport h q) s := by
  intro s₁ h₁ _
  refine ⟨fun hc => ?_, fun x answer s₂ _ _ _ => ?_⟩
  · rcases hq hc with hres | ⟨res, hj⟩
    · exact .inl ((stable_of_step HasResult.step).rely h₁ hres)
    · exact .inr ⟨res, (stable_of_step JobIs.step).rely h₁ hj⟩
  · rcases answer with e | ⟨_ | _⟩
    · exact safe_fail e
    · exact safe_replyAt _ _
    · exact safe_replyAt _ _

theorem safe_reportJob (q : ReportRequest) :
    MethodSafe h (JobCoordinatorV2.reportJob h q) s := by
  unfold JobCoordinatorV2.reportJob
  split_ifs
  · exact safe_fail _
  · exact safe_fail _
  intro s₁ _ _
  refine ⟨trivial, fun x answer s₁' _ hx _ => ?_⟩
  cases x <;> cases hx
  rcases hr : getJob s₁ q.jobId with e | ⟨_ | job⟩
  · exact safe_fail e
  · exact safe_fail _
  dsimp only
  split
  · exact safe_fail _
  split_ifs with hreq
  · intro s₂ h₂ _
    refine ⟨trivial, fun x answer s₂' _ hx _ => ?_⟩
    cases x <;> cases hx
    rcases ha : getAttempt s₂ q.attemptId with e | ⟨_ | attempt⟩
    · exact safe_fail e
    · exact safe_fail _
    dsimp only
    split
    · exact safe_fail _
    next res hres =>
      exact safe_sendReport fun _ => .inl ⟨attempt, getAttempt_stored ha, by simp [hres]⟩
  · refine safe_sendReport fun hc => .inr ⟨job.resourceId, job, getJob_stored hr, ?_, rfl⟩
    cases ht : job.resultTarget with
    | none => rfl
    | resource => exact absurd ⟨ht, hc⟩ hreq

end methods

theorem served (h : Digests) : (coordinator h).Served amongOthers managed where
  init s hs := by
    cases hs
    exact ⟨Linkage.empty, Managed.empty⟩
  replies _ _ _ _ := trivial
  surrounds r a ha := by
    obtain ⟨now, c⟩ := a
    cases c with
    | report | recordResult => cases ha
    | _ => trivial
  fits r e x answer r' _ hneed _ hserve := by
    have call (now : Nat) (c : Call) (hb : Backed r c) :
        (coordinator h).Rely managed.policy r (exec now r c) := .single ⟨(now, c), hb, rfl⟩
    have after {α : Type} {a b : α × Redis} (hab : some a = some b) : a.2 = b.2 := by
      cases hab
      rfl
    cases e with
    | recordJobResult p result mode =>
      cases x with
      | redisTime now =>
        obtain rfl : _ = r' := after hserve
        exact call now (.recordResult p result mode) hneed
      | date | transaction => cases hserve
    | reportJob p rep =>
      cases x with
      | redisTime now =>
        obtain rfl : _ = r' := after hserve
        exact call now (.report p rep) hneed
      | date | transaction => cases hserve
    | getJob | getAttempt | applyManagedJobResult | dateNow =>
      cases x <;> cases hserve
      exact .refl
  kept := by
    rintro r a r' ⟨L, M⟩ hb hr
    cases hr
    have e := exec_effect a.1 r a.2
    exact ⟨L.step e, M.step L e hb⟩

/-- **A completed resource job has its result**, for its own resource, in every state the methods
and the scripts of the others reach. -/
theorem completed_has_result {h : Digests} {s : Server.State Redis Ask Ask.Answer _}
    (hs : ((coordinator h).under amongOthers).Reachable s) {id aid : String} {job : JobRecordV2}
    {att : AttemptRecordV1} {rep : PersistedExecutionReport} (hj : s.store.jobs id = some job)
    (target : job.resultTarget = .resource) (latest : job.latestAttemptId = some aid)
    (ha : s.store.attempts aid = some att) (hr : att.report = some rep)
    (completed : rep.executionStatus = .completed) :
    ∃ result, att.result = some result ∧ job.resourceId = some result.resourceId := by
  have hI := (Server.reachable_safe (served h) (Q := fun _ _ => True)
    (fun _ _ _ _ _ _ _ => trivial) (fun q s _ => by
      cases q with
      | submitJobResult q => exact safe_submitJobResult q
      | reportJob q => exact safe_reportJob q) hs).1
  obtain ⟨L, M⟩ := hI
  obtain ⟨b, rfl, hb⟩ := L.names hj latest
  obtain rfl : att = b := Option.some.inj (ha.symm.trans hb.stored)
  obtain ⟨t, res, hjob, hf⟩ := M _ _ ha
  rw [hb.ids.jobId, L.job_key hj] at hjob
  obtain ⟨rfl, rfl⟩ := hjob.unique ⟨job, hj, rfl, rfl⟩
  obtain ⟨result, hresult⟩ := Option.ne_none_iff_exists'.1 (hf.backed rep hr completed target)
  exact ⟨result, hresult, hf.own result hresult⟩

/-! ### a job that has its result -/

namespace Resourced

def resourceId : String := "res-00000000-0000-4000-8000-000000000006"

def job : JobRecordV2 := { sampleJob with resourceId := some resourceId, resultTarget := .resource }

def claimToken : String := "0000000000000000000000000000000000000000000000000000000000000000"

def claimTokenSha256 : String := "60e05bd1b195af2f94112fa7197a5c88289058840ce7c6df9693756bc6250f55"

def payloadSha256 : String := "95a5f220b537257176f9c1d6566beeb8fb9af449cc2bc610384a92bf9a6a2396"

/-- SHA-256 of the one token and of the one result there is. -/
def digests : Digests := ⟨fun _ => claimTokenSha256, fun _ => payloadSha256⟩

def claim : ClaimParams := { sampleClaim with claimTokenSha256 := claimTokenSha256 }

def submission : SubmitRequest :=
  { deviceId := claim.deviceId
    jobId := job.jobId
    attemptId := claim.attemptId
    claimToken := claimToken
    result :=
      { schemaVersion := 1
        jobId := job.jobId
        attemptId := claim.attemptId
        resourceId := resourceId
        summary := "s"
        operations := [[("op", .str "upsert_content"), ("content", .str "c")]] }
    payloadSha256 := payloadSha256
    deliveryMode := .automatic }

def report : ReportRequest :=
  { deviceId := claim.deviceId
    jobId := job.jobId
    attemptId := claim.attemptId
    claimToken := claimToken
    report :=
      { schemaVersion := 2
        executionStatus := .completed
        businessOutcome := .unverified
        taskDispatched := true
        finishedAtMs := 3000
        durationMs := 500
        executor := ⟨"codex", "1.0.0"⟩
        receiptSha256 := "3333333333333333333333333333333333333333333333333333333333333333"
        error := none } }

/-- The job is claimed and started; then its result is submitted and it is reported. -/
def steps : List (Server.Label Choice (Nat × Call) MethodRequest) :=
  [.surround (1000, .create job job.requestId), .surround (2000, .claim claim),
   .surround (2500, .start ⟨job.jobId, claim.attemptId, claim.deviceId, claimTokenSha256⟩),
   .accept (.submitJobResult submission), .reply 0 (.redisTime 3000), .reply 0 (.redisTime 3001),
   .reply 0 (.transaction (.ok ⟨"5555555555555555555555555555555555555555", false⟩)),
   .reply 0 (.date 3002), .reply 0 (.redisTime 3003),
   .accept (.reportJob report), .reply 1 (.redisTime 3004), .reply 1 (.redisTime 3005),
   .reply 1 (.redisTime 3006)]

/-- The job names the attempt, and the attempt has completed. -/
def completed (r : Redis) : Bool :=
  (r.jobs job.jobId).any (fun j => j.resultTarget == .resource && j.latestAttemptId == some claim.attemptId) &&
  (r.attempts claim.attemptId).any fun a => a.report.any (·.executionStatus == .completed)

end Resourced

set_option maxRecDepth 10000 in
theorem completed_has_result_sample :
    ∃ s job att result, ((coordinator Resourced.digests).under amongOthers).Reachable s ∧
      s.store.jobs Resourced.job.jobId = some job ∧
      s.store.attempts Resourced.claim.attemptId = some att ∧
      att.result = some result ∧ job.resourceId = some result.resourceId := by
  obtain ⟨s, hs, hc⟩ := (coordinator Resourced.digests).reachable_runUnder (P := amongOthers)
    (show Redis.empty = Redis.empty from rfl) Resourced.steps
    (fun s => Resourced.completed s.store) (by decide +kernel)
  simp only [Resourced.completed, Bool.and_eq_true, Option.any_eq_true, beq_iff_eq] at hc
  obtain ⟨⟨job, hj, target, latest⟩, att, ha, rep, hr, completed⟩ := hc
  obtain ⟨result, hresult, hres⟩ :=
    completed_has_result hs hj target latest ha hr completed
  exact ⟨s, job, att, result, hs, hj, ha, hresult, hres⟩

end Ceo.Jobs
