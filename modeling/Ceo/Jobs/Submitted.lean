import Ceo.Jobs.Submit
import Ceo.Jobs.PendingPoll

/-!
# One job for one request

A request and its job come into the store together and stay together: the job's
ids, target and digest never change, and no other call touches the request
(`Requested`). Whatever a submission reads later is therefore what the first
one with its request id has written, and two that are answered with a job are
answered with the same.
-/

namespace Ceo.Jobs

open Ceo.Lib Function

/-! ### what a call does to the submissions -/

/-- The record is still that of its submission. -/
structure SameSubmission (job job' : JobRecordV2) : Prop where
  jobId : job'.jobId = job.jobId
  userId : job'.userId = job.userId
  workspaceId : job'.workspaceId = job.workspaceId
  requestId : job'.requestId = job.requestId
  targetId : job'.targetId = job.targetId
  requestDigest : job'.requestDigest = job.requestDigest

def JobRecordV2.requestKey (job : JobRecordV2) : String :=
  requestKeyV2 job.userId job.workspaceId job.requestId

theorem SameSubmission.requestKey {job job' : JobRecordV2} (h : SameSubmission job job') :
    job'.requestKey = job.requestKey := by
  unfold JobRecordV2.requestKey
  rw [h.userId, h.workspaceId, h.requestId]

inductive JobsKept (r r' : Redis) : Prop where
  | same (jobs : r'.jobs = r.jobs)
  | written {k : String} {job job' : JobRecordV2} (stored : r.jobs k = some job)
    (jobs : r'.jobs = update r.jobs k (some job')) (same : SameSubmission job job')

inductive SubmitMove (r r' : Redis) : Call → Prop where
  | kept {c : Call} (jobs : JobsKept r r') (requests : r'.requests = r.requests)
    (stream : r'.stream = r.stream)
    (queues : ∀ t, (r'.targetQueues t).Sublist (r.targetQueues t)) : SubmitMove r r' c
  | created {job : JobRecordV2} {requestId : String} {entry : StreamId} {row : JobStreamEntryV2}
    (free : r.requests (requestKeyV2 job.userId job.workspaceId requestId) = none)
    (fresh : r.jobs job.jobId = none)
    (jobs : r'.jobs = update r.jobs job.jobId (some (Cjson.encodeJob (createdJob job entry))))
    (requests : r'.requests =
      update r.requests (requestKeyV2 job.userId job.workspaceId requestId) (some job.jobId))
    (stream : r'.stream = r.stream ++ [(entry, row)]) (own : row.jobId = job.jobId)
    (queues : r'.targetQueues = update r.targetQueues job.targetId
      (zadd (r.targetQueues job.targetId) job.jobId job.createdAtMs)) :
    SubmitMove r r' (.create job requestId)

section moves

variable {r r' : Redis} {now : Nat} {c : Call}

theorem jobsKept_of_effect (e : Effect now r r' c) (hc : ∀ job requestId, c ≠ .create job requestId) :
    JobsKept r r' := by
  cases e with
  | frame jobs | started _ _ _ _ _ _ jobs | recorded _ _ _ jobs => exact .same jobs
  | created => exact absurd rfl (hc _ _)
  | claimed job job_at jobId workspace target isNew queued live free unfenced jobs =>
    exact .written job_at jobs ⟨rfl, rfl, rfl, rfl, rfl, rfl⟩
  | reported job att owns attemptId active phase jobs =>
    exact .written owns.job_at jobs ⟨rfl, rfl, rfl, rfl, rfl, rfl⟩
  | cancelledActive job att job_at active attempt_at expected jobId latest phase jobs =>
    exact .written job_at jobs ⟨rfl, rfl, rfl, rfl, rfl, rfl⟩
  | cancelledQueued job job_at queued jobs =>
    exact .written job_at jobs ⟨rfl, rfl, rfl, rfl, rfl, rfl⟩

theorem zremTargetQueue_sublist (r : Redis) (target id t : String) :
    ((r.zremTargetQueue target id).targetQueues t).Sublist (r.targetQueues t) := by
  unfold Redis.zremTargetQueue
  dsimp only
  by_cases ht : t = target
  · subst ht
    rw [update_self]
    exact List.filter_sublist
  · rw [update_of_ne ht]

/-- The queues lose at most one entry; requests and stream stay. -/
structure Withdraws (r r' : Redis) : Prop where
  requests : r'.requests = r.requests
  stream : r'.stream = r.stream
  queues : ∀ t, (r'.targetQueues t).Sublist (r.targetQueues t)

theorem Withdraws.refl (r : Redis) : Withdraws r r := ⟨rfl, rfl, fun _ => .refl _⟩

theorem claimJob_withdraws (now : Nat) (p : ClaimParams) (r : Redis) :
    Withdraws r (claimJob now p r).2 := by
  have hsnd : (claimJob now p r).2 = (claimScript now p r).2 := by
    unfold claimJob
    rcases claimScript now p r with ⟨_ | _, r'⟩ <;> rfl
  rw [hsnd, claimScript, v2ClaimJobScript]
  repeat' split
  all_goals first
    | exact .refl _
    | exact ⟨rfl, rfl, zremTargetQueue_sublist r p.expectedTargetId p.jobId⟩

theorem cancelJob_withdraws (now : Nat) (p : CancelParams) (r : Redis) :
    Withdraws r (cancelJob now p r).2 := by
  have hsnd : (cancelJob now p r).2 = (cancelScript now p r).2 := by
    unfold cancelJob
    rcases cancelScript now p r with ⟨_ | _, r'⟩ <;> rfl
  rw [hsnd, cancelScript, v2CancelJobScript]
  dsimp only
  repeat' split
  all_goals first
    | exact ⟨rfl, rfl, fun _ => .refl _⟩
    | exact ⟨rfl, rfl, zremTargetQueue_sublist r p.expectedTargetId _⟩

theorem RecordsOnly.withdraws (h : RecordsOnly r r') : Withdraws r r' := by
  obtain ⟨jobs, attempts, rfl⟩ := h
  exact ⟨rfl, rfl, fun _ => .refl _⟩

theorem createJob_submitMove (now : Nat) (job : JobRecordV2) (requestId : String) (r : Redis) :
    SubmitMove r (createJob now job requestId r).2 (.create job requestId) := by
  have frame : SubmitMove r r (.create job requestId) := .kept (.same rfl) rfl rfl fun _ => .refl _
  unfold createJob
  cases hs : serializeJobRecordV2 job with
  | error m => exact frame
  | ok record =>
    obtain ⟨rfl, -⟩ := parseJobRecordV2_ok hs
    simp only [v2CreateJobScript]
    cases hfree : r.requests (requestKeyV2 record.userId record.workspaceId requestId) with
    | some e => exact frame
    | none =>
      split_ifs with hf hj
      · exact frame
      · exact frame
      · exact .created hfree (by simpa using hj) rfl rfl rfl rfl rfl

/-- **What one call does to the submissions.** -/
theorem exec_submitMove (now : Nat) (r : Redis) (c : Call) : SubmitMove r (exec now r c) c := by
  have kept (hc : ∀ job requestId, c ≠ .create job requestId) (h : Withdraws r (exec now r c)) :
      SubmitMove r (exec now r c) c :=
    .kept (jobsKept_of_effect (exec_effect now r c) hc) h.requests h.stream h.queues
  cases c with
  | create job requestId => exact createJob_submitMove now job requestId r
  | claim p => exact kept (by simp) (claimJob_withdraws now p r)
  | start p => exact kept (by simp) (startJob_recordsOnly now p r).withdraws
  | report p rep => exact kept (by simp) (reportJob_recordsOnly now p rep r).withdraws
  | cancel p => exact kept (by simp) (cancelJob_withdraws now p r)
  | recordResult p result mode =>
    exact kept (by simp) (recordJobResult_recordsOnly now p result mode r).withdraws
  | setFence t f => exact kept (by simp) ⟨rfl, rfl, fun _ => .refl _⟩
  | pruneTargetQueue t id => exact kept (by simp) ⟨rfl, rfl, zremTargetQueue_sublist r t id⟩

end moves

/-! ### requests and their jobs -/

def streamIds (r : Redis) : List String := r.stream.map (·.2.jobId)

structure Requested (r : Redis) : Prop where
  /-- Behind a request is its job. -/
  job : ∀ key id, r.requests key = some id → ∃ job, r.jobs id = some job ∧ job.requestKey = key
  /-- A job's request leads to it. -/
  request : ∀ id job, r.jobs id = some job → r.requests job.requestKey = some id ∧ job.jobId = id
  streamed : ∀ id ∈ streamIds r, (r.jobs id).isSome
  streamedOnce : (streamIds r).Nodup
  queued : ∀ t, ∀ e ∈ r.targetQueues t, ∃ job, r.jobs e.1 = some job ∧ job.targetId = t
  queuedOnce : ∀ t, ((r.targetQueues t).map Prod.fst).Nodup

theorem JobsKept.old {r r' : Redis} (h : JobsKept r r') {id : String} {job : JobRecordV2}
    (hj : r.jobs id = some job) : ∃ job', r'.jobs id = some job' ∧ SameSubmission job job' := by
  have refl : SameSubmission job job := ⟨rfl, rfl, rfl, rfl, rfl, rfl⟩
  cases h with
  | same jobs => exact ⟨job, jobs ▸ hj, refl⟩
  | @written k a a' stored jobs same =>
    by_cases hk : id = k
    · subst hk
      obtain rfl : a = job := Option.some.inj (stored.symm.trans hj)
      exact ⟨a', by rw [jobs, update_self], same⟩
    · exact ⟨job, by rw [jobs, update_of_ne hk, hj], refl⟩

theorem JobsKept.new {r r' : Redis} (h : JobsKept r r') {id : String} {job' : JobRecordV2}
    (hj : r'.jobs id = some job') : ∃ job, r.jobs id = some job ∧ SameSubmission job job' := by
  have refl : SameSubmission job' job' := ⟨rfl, rfl, rfl, rfl, rfl, rfl⟩
  cases h with
  | same jobs => exact ⟨job', jobs ▸ hj, refl⟩
  | @written k a a' stored jobs same =>
    rw [jobs, update_eq_some] at hj
    rcases hj with ⟨rfl, rfl⟩ | ⟨-, hj⟩
    · exact ⟨a, stored, same⟩
    · exact ⟨job', hj, refl⟩

namespace Requested

variable {r r' : Redis} {c : Call}

theorem empty : Requested Redis.empty where
  job _ _ h := by cases h
  request _ _ h := by cases h
  streamed _ h := by cases h
  streamedOnce := List.nodup_nil
  queued _ _ h := by cases h
  queuedOnce _ := List.nodup_nil

theorem kept (R : Requested r) (jobs : JobsKept r r') (requests : r'.requests = r.requests)
    (stream : r'.stream = r.stream)
    (queues : ∀ t, (r'.targetQueues t).Sublist (r.targetQueues t)) : Requested r' where
  job key id h := by
    obtain ⟨job, hj, hkey⟩ := R.job key id (requests ▸ h)
    obtain ⟨job', hj', same⟩ := jobs.old hj
    exact ⟨job', hj', same.requestKey.trans hkey⟩
  request id job' h := by
    obtain ⟨job, hj, same⟩ := jobs.new h
    obtain ⟨hreq, hid⟩ := R.request id job hj
    rw [requests, same.requestKey]
    exact ⟨hreq, same.jobId.trans hid⟩
  streamed id h := by
    unfold streamIds at h
    rw [stream] at h
    obtain ⟨job, hj⟩ := Option.isSome_iff_exists.1 (R.streamed id h)
    obtain ⟨job', hj', -⟩ := jobs.old hj
    exact Option.isSome_iff_exists.2 ⟨job', hj'⟩
  streamedOnce := by
    unfold streamIds
    rw [stream]
    exact R.streamedOnce
  queued t e he := by
    obtain ⟨job, hj, ht⟩ := R.queued t e ((queues t).subset he)
    obtain ⟨job', hj', same⟩ := jobs.old hj
    exact ⟨job', hj', same.targetId.trans ht⟩
  queuedOnce t := ((queues t).map Prod.fst).nodup (R.queuedOnce t)

/-- **Every call keeps requests and jobs together.** -/
theorem step (R : Requested r) (m : SubmitMove r r' c) (own : c.ownRequest = true) :
    Requested r' := by
  cases m with
  | kept jobs requests stream queues => exact R.kept jobs requests stream queues
  | @created job requestId entry row free fresh jobs requests stream own' queues =>
    obtain rfl : requestId = job.requestId := beq_iff_eq.1 own
    have hkey : (Cjson.encodeJob (createdJob job entry)).requestKey = job.requestKey := rfl
    have old {id : String} {a : JobRecordV2} (h : r.jobs id = some a) : r'.jobs id = some a := by
      rw [jobs, update_of_ne, h]
      rintro rfl
      rw [fresh] at h
      cases h
    have hnew : r'.jobs job.jobId = some (Cjson.encodeJob (createdJob job entry)) := by
      rw [jobs, update_self]
    have unstreamed : job.jobId ∉ streamIds r := by
      intro h
      have := R.streamed _ h
      rw [fresh] at this
      cases this
    refine ⟨fun key id h => ?_, fun id a h => ?_, fun id h => ?_, ?_, fun t e he => ?_, fun t => ?_⟩
    · rw [requests, update_eq_some] at h
      rcases h with ⟨rfl, rfl⟩ | ⟨-, h⟩
      · exact ⟨_, hnew, hkey⟩
      · obtain ⟨a, ha, hak⟩ := R.job key id h
        exact ⟨a, old ha, hak⟩
    · rw [jobs, update_eq_some] at h
      rcases h with ⟨rfl, rfl⟩ | ⟨-, h⟩
      · refine ⟨?_, rfl⟩
        rw [requests, hkey]
        exact update_self ..
      · obtain ⟨hreq, hid⟩ := R.request id a h
        refine ⟨?_, hid⟩
        rw [requests, update_of_ne, hreq]
        intro hak
        rw [hak] at hreq
        have hnone := hreq.symm.trans free
        cases hnone
    · unfold streamIds at h
      rw [stream, List.map_append] at h
      rcases List.mem_append.1 h with h | h
      · obtain ⟨a, ha⟩ := Option.isSome_iff_exists.1 (R.streamed id h)
        exact Option.isSome_iff_exists.2 ⟨a, old ha⟩
      · obtain rfl : id = row.jobId := List.mem_singleton.1 h
        rw [own', hnew]
        rfl
    · unfold streamIds
      rw [stream, List.map_append]
      refine List.nodup_append.2 ⟨R.streamedOnce, List.nodup_singleton _, fun a ha b hb hab => ?_⟩
      obtain rfl : b = row.jobId := List.mem_singleton.1 hb
      exact unstreamed (own' ▸ hab ▸ ha)
    · rw [queues] at he
      by_cases ht : t = job.targetId
      · subst ht
        rw [update_self] at he
        rcases mem_zadd.1 he with rfl | ⟨he, -⟩
        · exact ⟨_, hnew, rfl⟩
        · obtain ⟨a, ha, hat⟩ := R.queued _ e he
          exact ⟨a, old ha, hat⟩
      · rw [update_of_ne ht] at he
        obtain ⟨a, ha, hat⟩ := R.queued t e he
        exact ⟨a, old ha, hat⟩
    · rw [queues]
      by_cases ht : t = job.targetId
      · subst ht
        rw [update_self]
        have hsub : ((zrem (r.targetQueues job.targetId) job.jobId).map Prod.fst).Nodup :=
          (List.filter_sublist.map Prod.fst).nodup (R.queuedOnce _)
        exact zinsert_members job.createdAtMs hsub fun e he => (mem_zrem.1 he).2
      · rw [update_of_ne ht]
        exact R.queuedOnce t

end Requested

/-! ### what a submission is answered -/

/-- The request of a submission leads to this job, which has its ids and this digest. -/
structure SubmittedAs (q : SubmissionRequest) (id digest : String) (r : Redis) : Prop where
  request : r.requests (requestKeyV2 q.1.userId q.1.workspaceId q.2.requestId) = some id
  job : ∃ job, r.jobs id = some job ∧ job.userId = q.1.userId ∧ job.workspaceId = q.1.workspaceId ∧
    job.requestId = q.2.requestId ∧ job.requestDigest = digest

/-- Someone else's job is under the request, or one with another digest. -/
def Contested (q : SubmissionRequest) (digest : String) (r : Redis) : Prop :=
  ∃ id job, r.requests (requestKeyV2 q.1.userId q.1.workspaceId q.2.requestId) = some id ∧
    r.jobs id = some job ∧ (job.userId ≠ q.1.userId ∨ job.workspaceId ≠ q.1.workspaceId ∨
      job.requestId ≠ q.2.requestId ∨ job.requestDigest ≠ digest)

theorem SubmitMove.request {r r' : Redis} {c : Call} (m : SubmitMove r r' c) {key id : String}
    (h : r.requests key = some id) : r'.requests key = some id := by
  cases m with
  | kept _ requests => exact requests ▸ h
  | created free _ _ requests =>
    rw [requests, update_of_ne, h]
    rintro rfl
    rw [free] at h
    cases h

theorem SubmitMove.job {r r' : Redis} {c : Call} (m : SubmitMove r r' c) {id : String}
    {job : JobRecordV2} (h : r.jobs id = some job) :
    ∃ job', r'.jobs id = some job' ∧ SameSubmission job job' := by
  cases m with
  | kept jobs => exact jobs.old h
  | created _ fresh jobs =>
    refine ⟨job, ?_, rfl, rfl, rfl, rfl, rfl, rfl⟩
    rw [jobs, update_of_ne, h]
    rintro rfl
    rw [fresh] at h
    cases h

theorem SubmittedAs.step {q : SubmissionRequest} {id digest : String} {r r' : Redis} {c : Call}
    (h : SubmittedAs q id digest r) (m : SubmitMove r r' c) : SubmittedAs q id digest r' := by
  obtain ⟨job, hj, hu, hw, hr, hd⟩ := h.job
  obtain ⟨job', hj', same⟩ := m.job hj
  exact ⟨m.request h.request, job', hj', same.userId.trans hu, same.workspaceId.trans hw,
    same.requestId.trans hr, same.requestDigest.trans hd⟩

theorem Contested.step {q : SubmissionRequest} {digest : String} {r r' : Redis} {c : Call}
    (h : Contested q digest r) (m : SubmitMove r r' c) : Contested q digest r' := by
  obtain ⟨id, job, hreq, hj, hne⟩ := h
  obtain ⟨job', hj', same⟩ := m.job hj
  refine ⟨id, job', m.request hreq, hj', ?_⟩
  rwa [same.userId, same.workspaceId, same.requestId, same.requestDigest]

/-- What an answer says of the store, for good. -/
def SubmitOutcome (h : BusinessDigest)
    (a : SubmissionRequest × Except SubmitError (SubmitStatus × JobRecordV2)) (r : Redis) : Prop :=
  match a.2 with
  | .ok (_, job) => SubmittedAs a.1 job.jobId (businessDigestV2 h a.1.2) r
  | .error (.v2 (.idempotencyConflict _)) => Contested a.1 (businessDigestV2 h a.1.2) r
  | .error _ => True

/-- Every job is created under its own request id, whoever creates it. -/
def requested : Contract Redis SubmitAsk SubmitChoice (Nat × Call) where
  policy := amongCalls
  inv := Requested
  needs _
    | .createJob job requestId => requestId = job.requestId
    | _ => True

section methods

variable {h : BusinessDigest} {s : Redis}

theorem submissions_stable {A : Redis → Prop}
    (step : ∀ {r r' : Redis} {c : Call}, A r → SubmitMove r r' c → A r') :
    (submissions h).Stable requested.policy A := by
  rintro r a r' hA - hr
  cases hr
  exact step hA (exec_submitMove a.1 r a.2)

theorem SubmitOutcome.step {a : SubmissionRequest × Except SubmitError (SubmitStatus × JobRecordV2)}
    {r r' : Redis} {c : Call} (ha : SubmitOutcome h a r) (m : SubmitMove r r' c) :
    SubmitOutcome h a r' := by
  unfold SubmitOutcome at ha ⊢
  split at ha
  · exact ha.step m
  · exact ha.step m
  · trivial

abbrev SubmissionSafe (h : BusinessDigest) (q : SubmissionRequest) (m : Submission) (s : Redis) : Prop :=
  Safe (submissions h).toSurroundings requested (fun a r => SubmitOutcome h (q, a) r) m s

variable {q : SubmissionRequest}

/-- An error that is no conflict says nothing of the store. -/
theorem safe_refuse {e : SubmitError} (he : ∀ m, e ≠ .v2 (.idempotencyConflict m)) :
    SubmissionSafe h q (JobCoordinatorV2.refuse e) s := by
  show SubmitOutcome h (q, .error e) s
  unfold SubmitOutcome
  split
  next heq => cases heq
  next heq =>
    cases heq
    exact absurd rfl (he _)
  · trivial

theorem getJob_error_ne {r : Redis} {id : String} {e : V2Error} (he : getJob r id = .error e) (m : String) :
    e ≠ .idempotencyConflict m := by
  unfold getJob at he
  split at he
  · cases he
  next raw _ =>
    cases hp : parseJobRecordV2 raw with
    | ok a =>
      rw [hp] at he
      cases he
    | error msg =>
      rw [hp] at he
      cases he
      rintro ⟨⟩

/-- The match of the job found under the request says what its answer will. -/
theorem matchExisting_cases (digest differs : String) {job : JobRecordV2} {id : String} {r : Redis}
    (hreq : r.requests (requestKeyV2 q.1.userId q.1.workspaceId q.2.requestId) = some id)
    (hj : r.jobs id = some job) :
    (JobCoordinatorV2.matchExisting q.1 q.2 digest differs job = .ok () ∧ SubmittedAs q id digest r) ∨
    ∃ e, JobCoordinatorV2.matchExisting q.1 q.2 digest differs job = .error e ∧
      ((∃ m, e = .v2 (.idempotencyConflict m)) ∧ Contested q digest r ∨
        ∀ m, e ≠ .v2 (.idempotencyConflict m)) := by
  unfold JobCoordinatorV2.matchExisting
  by_cases hid : job.userId ≠ q.1.userId ∨ job.workspaceId ≠ q.1.workspaceId ∨
      job.requestId ≠ q.2.requestId
  · rw [if_pos hid]
    refine .inr ⟨_, rfl, .inl ⟨⟨_, rfl⟩, id, job, hreq, hj, ?_⟩⟩
    rcases hid with hu | hw | hr
    · exact .inl hu
    · exact .inr (.inl hw)
    · exact .inr (.inr (.inl hr))
  by_cases hp : job.status = .preparing
  · rw [if_neg hid, if_pos hp]
    exact .inr ⟨_, rfl, .inr fun m => by simp⟩
  by_cases hd : job.requestDigest ≠ digest
  · rw [if_neg hid, if_neg hp, if_pos hd]
    exact .inr ⟨_, rfl, .inl ⟨⟨_, rfl⟩, id, job, hreq, hj, .inr (.inr (.inr hd))⟩⟩
  · rw [if_neg hid, if_neg hp, if_neg hd]
    simp only [not_or, not_not] at hid hd
    exact .inl ⟨rfl, hreq, job, hj, hid.1, hid.2.1, hid.2.2, hd⟩

theorem safe_conflict {m : String} (hc : Contested q (businessDigestV2 h q.2) s) :
    SubmissionSafe h q (JobCoordinatorV2.refuse (.v2 (.idempotencyConflict m))) s := hc

theorem safe_retrieve {status : SubmitStatus} {id : String}
    (hs : SubmittedAs q id (businessDigestV2 h q.2) s) :
    SubmissionSafe h q (JobCoordinatorV2.retrieve status id) s := by
  intro s₁ h₁ hI
  have hs₁ := (submissions_stable SubmittedAs.step).rely h₁ hs
  refine ⟨trivial, fun x answer s₂ _ hx _ => ?_⟩
  cases x <;> cases hx
  rcases hr : getJob s₁ id with e | ⟨_ | job⟩
  · exact safe_refuse fun m heq => getJob_error_ne hr m (SubmitError.v2.inj heq)
  · exact safe_refuse fun m => by simp
  · have hid : job.jobId = id := (hI.request id job (getJob_stored hr)).2
    show SubmittedAs q job.jobId (businessDigestV2 h q.2) s₁
    rw [hid]
    exact hs₁

theorem safe_existingRequest {id : String}
    (hs : s.requests (requestKeyV2 q.1.userId q.1.workspaceId q.2.requestId) = some id) :
    SubmissionSafe h q (JobCoordinatorV2.existingRequest q.1 q.2 (businessDigestV2 h q.2) id) s := by
  intro s₁ h₁ hI
  have hs₁ := (submissions_stable (h := h) (A := fun r => r.requests _ = some id)
    fun hr m => m.request hr).rely h₁ hs
  refine ⟨trivial, fun x answer s₂ _ hx _ => ?_⟩
  cases x <;> cases hx
  rcases hr : getJob s₁ id with e | ⟨_ | job⟩
  · dsimp only
    split
    · exact safe_refuse fun m => by simp
    next heq =>
      cases heq
      exact safe_refuse fun m heq => getJob_error_ne hr m (SubmitError.v2.inj heq)
    next heq => cases heq
    next heq => cases heq
  · exact safe_refuse fun m => by simp [JobCoordinatorV2.missingJob]
  · have hj := getJob_stored hr
    have hid : job.jobId = id := (hI.request id job hj).2
    dsimp only
    rcases matchExisting_cases (businessDigestV2 h q.2)
      "A job with this request ID already exists with different parameters." hs₁ hj with ⟨hok, hsub⟩ | ⟨e, herr, ⟨⟨m, rfl⟩, hc⟩ | hne⟩
    · rw [hok, hid]
      exact safe_retrieve hsub
    · rw [herr]
      exact safe_conflict hc
    · rw [herr]
      exact safe_refuse hne

theorem createJob_error_ne {now : Nat} {job : JobRecordV2} {requestId : String} {r r' : Redis}
    {e : V2Error} (he : createJob now job requestId r = (.error e, r')) (m : String) :
    e ≠ .idempotencyConflict m := by
  unfold createJob at he
  cases hs : serializeJobRecordV2 job with
  | error msg =>
    rw [hs] at he
    cases he
    rintro ⟨⟩
  | ok record =>
    rw [hs] at he
    dsimp only at he
    split at he
    · cases he
    · cases he
      rintro ⟨⟩
    · cases he
      rintro ⟨⟩

/-- The script created the job that was sent. -/
theorem createJob_created {now : Nat} {job : JobRecordV2} {requestId id entry : String} {r r' : Redis}
    (hr : createJob now job requestId r = (.ok (.created id entry), r')) :
    r'.requests (requestKeyV2 job.userId job.workspaceId requestId) = some id ∧
      ∃ job', r'.jobs id = some job' ∧ SameSubmission job job' := by
  unfold createJob at hr
  cases hs : serializeJobRecordV2 job with
  | error msg =>
    rw [hs] at hr
    cases hr
  | ok record =>
    obtain ⟨rfl, -⟩ := parseJobRecordV2_ok hs
    rw [hs] at hr
    simp only [v2CreateJobScript] at hr
    cases hreq : r.requests (requestKeyV2 record.userId record.workspaceId requestId) with
    | some id =>
      rw [hreq] at hr
      cases hr
    | none =>
      rw [hreq] at hr
      dsimp only at hr
      split_ifs at hr with hf hj
      · cases hr
      · cases hr
      · cases hr
        exact ⟨update_self .., _, update_self .., rfl, rfl, rfl, rfl, rfl, rfl⟩

theorem createJob_existing {now : Nat} {job : JobRecordV2} {requestId id : String} {r r' : Redis}
    (hr : createJob now job requestId r = (.ok (.existingRequest id), r')) :
    r'.requests (requestKeyV2 job.userId job.workspaceId requestId) = some id := by
  unfold createJob at hr
  cases hs : serializeJobRecordV2 job with
  | error msg =>
    rw [hs] at hr
    cases hr
  | ok record =>
    obtain ⟨rfl, -⟩ := parseJobRecordV2_ok hs
    rw [hs] at hr
    simp only [v2CreateJobScript] at hr
    cases hreq : r.requests (requestKeyV2 record.userId record.workspaceId requestId) with
    | some id =>
      rw [hreq] at hr
      cases hr
      exact hreq
    | none =>
      rw [hreq] at hr
      dsimp only at hr
      split_ifs at hr <;> cases hr

theorem safe_createSubmission :
    SubmissionSafe h q (JobCoordinatorV2.createSubmission q.1 q.2 (businessDigestV2 h q.2)) s := by
  intro s₁ _ _
  refine ⟨trivial, fun x jobId _ _ hx _ => ?_⟩
  cases x <;> cases hx
  intro s₂ _ _
  refine ⟨trivial, fun x now _ _ hx _ => ?_⟩
  cases x <;> cases hx
  intro s₃ _ _
  refine ⟨rfl, fun x answer s₄ _ hx _ => ?_⟩
  cases x with
  | redisTime redisNow =>
    obtain ⟨job, hjob, hu, hw, hr, hd⟩ : ∃ job,
        submitRecord q.1 q.2 jobId (businessDigestV2 h q.2) now = job ∧ job.userId = q.1.userId ∧
        job.workspaceId = q.1.workspaceId ∧ job.requestId = q.2.requestId ∧
        job.requestDigest = businessDigestV2 h q.2 := ⟨_, rfl, rfl, rfl, rfl, rfl⟩
    rw [hjob] at hx
    have hcreate : createJob redisNow job q.2.requestId s₃ = (answer, s₄) := Option.some.inj hx
    rcases answer with e | id | ⟨id, entry⟩
    · exact safe_refuse fun m heq => createJob_error_ne hcreate m (SubmitError.v2.inj heq)
    · have hreq := createJob_existing hcreate
      rw [hu, hw] at hreq
      exact safe_existingRequest hreq
    · obtain ⟨hreq, job', hj', same⟩ := createJob_created hcreate
      rw [hu, hw] at hreq
      have hsub : SubmittedAs q id (businessDigestV2 h q.2) s₄ :=
        ⟨hreq, job', hj', same.userId.trans hu, same.workspaceId.trans hw, same.requestId.trans hr,
          same.requestDigest.trans hd⟩
      exact safe_retrieve hsub
  | control | found | jobId | date => cases hx

theorem safe_authorizeSubmission :
    SubmissionSafe h q (JobCoordinatorV2.authorizeSubmission q.1 q.2 (businessDigestV2 h q.2)) s := by
  intro s₁ _ _
  refine ⟨trivial, fun x control _ _ hx _ => ?_⟩
  cases x <;> cases hx
  dsimp only
  rcases ha : authorize control q.1 q.2 with e | ⟨⟩
  · refine safe_refuse fun m heq => ?_
    subst heq
    unfold authorize at ha
    split at ha
    · cases ha
    · split_ifs at ha <;> cases ha
  · dsimp only
    split
    · exact safe_createSubmission
    · intro s₂ _ _
      refine ⟨trivial, fun x answer _ _ hx _ => ?_⟩
      cases x <;> cases hx
      rcases answer with _ | _
      · exact safe_refuse fun m => by simp
      · exact safe_createSubmission

theorem safe_submit : SubmissionSafe h q (JobCoordinatorV2.submit h q.1 q.2) s := by
  intro s₁ _ _
  refine ⟨trivial, fun x control _ _ hx _ => ?_⟩
  cases x <;> cases hx
  dsimp only
  rcases ha : assertHostWorkspaceAccess control q.1 with e | ⟨⟩
  · refine safe_refuse fun m heq => ?_
    cases heq
    unfold assertHostWorkspaceAccess at ha
    split_ifs at ha <;> cases ha
  dsimp only
  rcases Guard.run (submitGuards q.2) with e | ⟨⟩
  · exact safe_refuse fun m => by simp
  intro s₂ _ hI
  refine ⟨trivial, fun x existing s₃ _ hx _ => ?_⟩
  cases x <;> cases hx
  dsimp only
  split
  · exact safe_authorizeSubmission
  next id hid =>
    have hreq := (Option.filter_eq_some_iff.1 hid).1
    intro s₄ h₄ hI₄
    have hreq₄ := (submissions_stable (h := h) (A := fun r => r.requests _ = some id)
      fun hr m => m.request hr).rely h₄ hreq
    refine ⟨trivial, fun x answer _ _ hx _ => ?_⟩
    cases x <;> cases hx
    rcases hr : getJob s₄ id with e | ⟨_ | job⟩
    · exact safe_refuse fun m heq => getJob_error_ne hr m (SubmitError.v2.inj heq)
    · exact safe_refuse fun m => by simp [JobCoordinatorV2.missingJob]
    · have hj := getJob_stored hr
      have hjid : job.jobId = id := (hI₄.request id job hj).2
      dsimp only
      rcases matchExisting_cases (businessDigestV2 h q.2)
        "Request digest mismatch with existing job." hreq₄ hj with
        ⟨hok, hsub⟩ | ⟨e, herr, ⟨⟨m, rfl⟩, hc⟩ | hne⟩
      · rw [hok]
        show SubmittedAs q job.jobId (businessDigestV2 h q.2) s₄
        rw [hjid]
        exact hsub
      · rw [herr]
        exact safe_conflict hc
      · rw [herr]
        exact safe_refuse hne

end methods

theorem submissions_served (h : BusinessDigest) : (submissions h).Served amongCalls requested where
  init s hs := by
    cases hs
    exact .empty
  replies _ _ _ _ := trivial
  surrounds _ _ ha := ha
  fits r e x answer r' _ hneed _ hserve := by
    cases e with
    | createJob job requestId =>
      cases x with
      | redisTime now =>
        have hown : (Call.create job requestId).ownRequest = true := beq_iff_eq.2 hneed
        obtain rfl : (createJob now job requestId r).2 = r' :=
          congrArg Prod.snd (Option.some.inj hserve)
        exact .single ⟨(now, .create job requestId), hown, rfl⟩
      | control | found | jobId | date => cases hserve
    | control | resourceExists | randomUuid | nowMs | getRequestJobId | getJob =>
      cases x <;> cases hserve
      exact .refl
  kept := by
    rintro r a r' R hown hr
    cases hr
    exact R.step (exec_submitMove a.1 r a.2) hown

theorem submissions_reachable {h : BusinessDigest} {s : Server.State Redis SubmitAsk SubmitAsk.Answer _}
    (hs : ((submissions h).under amongCalls).Reachable s) :
    Requested s.store ∧ ∀ a, .done a ∈ s.sessions → SubmitOutcome h a s.store := by
  obtain ⟨R, hsafe⟩ := Server.reachable_safe (submissions_served h) (Q := SubmitOutcome h)
    (fun _ => submissions_stable SubmitOutcome.step)
    (fun q s _ => Safe.bind safe_submit fun _ _ hb => hb) hs
  exact ⟨R, fun a ha => hsafe _ ha⟩

/-- **One job, one stream row and at most one queue entry for a request**, however many submissions
of it ran, in whatever order their lookups and scripts came. -/
theorem request_has_one_job {h : BusinessDigest}
    {s : Server.State Redis SubmitAsk SubmitAsk.Answer _}
    (hs : ((submissions h).under amongCalls).Reachable s) :
    (∀ id id' job job', s.store.jobs id = some job → s.store.jobs id' = some job' →
      job.userId = job'.userId → job.workspaceId = job'.workspaceId →
      job.requestId = job'.requestId → id = id') ∧
    ((streamIds s.store).Nodup ∧ ∀ id ∈ streamIds s.store, (s.store.jobs id).isSome) ∧
    (∀ t, ((s.store.targetQueues t).map Prod.fst).Nodup) ∧
    ∀ t t' e e', e ∈ s.store.targetQueues t → e' ∈ s.store.targetQueues t' → e.1 = e'.1 → t = t' := by
  have R := (submissions_reachable hs).1
  refine ⟨fun id id' job job' hj hj' hu hw hr => ?_, ⟨R.streamedOnce, R.streamed⟩, R.queuedOnce,
    fun t t' e e' he he' heq => ?_⟩
  · have hkey : job.requestKey = job'.requestKey := by
      unfold JobRecordV2.requestKey
      rw [hu, hw, hr]
    have hreq := (R.request id job hj).1
    rw [hkey, (R.request id' job' hj').1] at hreq
    exact (Option.some.inj hreq).symm
  · obtain ⟨job, hj, ht⟩ := R.queued t e he
    obtain ⟨job', hj', ht'⟩ := R.queued t' e' he'
    rw [heq, hj'] at hj
    rw [← ht, ← ht', Option.some.inj hj]

/-- **Submissions of one request agree.** Once one is answered with a job, another of the same user,
workspace and request id that is answered with a job is answered with that one, and has its digest;
one that is answered with a conflict has another. -/
theorem submissions_agree {h : BusinessDigest} {s : Server.State Redis SubmitAsk SubmitAsk.Answer _}
    (hs : ((submissions h).under amongCalls).Reachable s) {scope : Scope} {input input' : SubmitJobInput}
    {status : SubmitStatus} {job : JobRecordV2}
    (answered : .done ((scope, input), .ok (status, job)) ∈ s.sessions)
    (same : input'.requestId = input.requestId) :
    (∀ status' job', .done ((scope, input'), .ok (status', job')) ∈ s.sessions →
      job'.jobId = job.jobId ∧ businessDigestV2 h input' = businessDigestV2 h input) ∧
    ∀ message, .done ((scope, input'), .error (.v2 (.idempotencyConflict message))) ∈ s.sessions →
      businessDigestV2 h input' ≠ businessDigestV2 h input := by
  obtain ⟨-, hout⟩ := submissions_reachable hs
  obtain ⟨hreq, stored, hstored, hu, hw, hr, hd⟩ := hout _ answered
  dsimp only at hreq hstored hu hw hr hd
  constructor
  · intro status' job' answered'
    obtain ⟨hreq', stored', hstored', -, -, -, hd'⟩ := hout _ answered'
    dsimp only at hreq' hstored' hd'
    rw [same, hreq] at hreq'
    have hid : job.jobId = job'.jobId := Option.some.inj hreq'
    rw [← hid, hstored] at hstored'
    exact ⟨hid.symm, hd'.symm.trans ((congrArg _ (Option.some.inj hstored')).symm.trans hd)⟩
  · intro message answered' heq
    obtain ⟨id, job', hreq', hj', hne⟩ := hout _ answered'
    dsimp only at hreq' hj' hne
    rw [same, hreq] at hreq'
    obtain rfl : job.jobId = id := Option.some.inj hreq'
    obtain rfl : stored = job' := Option.some.inj (hstored.symm.trans hj')
    rcases hne with hne | hne | hne | hne
    · exact hne hu
    · exact hne hw
    · exact hne (hr.trans same.symm)
    · exact hne (hd.trans heq.symm)

namespace Resubmitted

def targetId : String := "tgt_00000000-0000-4000-8000-000000000002"

def input (prompt : String) : SubmitJobInput :=
  { requestId := "00000000-0000-4000-8000-00000000000a"
    targetId := targetId
    prompt := prompt
    acceptance := "a"
    resourceId := none
    executionTimeoutSeconds := 60
    resultTarget := .none }

/-- SHA-256 of the canonical JSON of the two inputs below. -/
def digest : BusinessDigest := fun _ prompt _ _ _ _ =>
  if prompt = "p" then "9a9aabb61bb48b1189c22d656858b81849ddfd0a79dd2fc6a1ad08d7d4d47d8e"
  else "e3ebaba170933fc25ef0e2b1ff652a1720bd70aa37b52403bbe12d117e745f16"

def scope : Scope := ⟨"usr_1", "ws_1"⟩

def control : Control where
  isUserActive _ := true
  isMember _ _ := true
  getExecutionTarget id := some ⟨id, "ws_1", "t", none⟩
  boundTargets _ := []
  eligibleTargets _ := []

def looksUp (i : Nat) : List (Server.Label SubmitChoice (Nat × Call) SubmissionRequest) :=
  [.reply i (.control control), .reply i (.redisTime 1000), .reply i (.control control)]

def creates (i : Nat) (jobId : String) :
    List (Server.Label SubmitChoice (Nat × Call) SubmissionRequest) :=
  [.reply i (.jobId jobId), .reply i (.date 1000), .reply i (.redisTime 1001),
    .reply i (.redisTime 1002)]

/-- Two submissions look for the request before either creates its job; the third has another
prompt. -/
def steps : List (Server.Label SubmitChoice (Nat × Call) SubmissionRequest) :=
  .accept (scope, input "p") :: .accept (scope, input "p") :: looksUp 0 ++ looksUp 1 ++
  creates 0 "job-00000000-0000-4000-8000-000000000001" ++
  creates 1 "job-00000000-0000-4000-8000-000000000002" ++ .reply 1 (.redisTime 1003) ::
  .accept (scope, input "q") ::
  [.reply 2 (.control control), .reply 2 (.redisTime 1004), .reply 2 (.redisTime 1005)]

abbrev Answer := Except SubmitError (SubmitStatus × JobRecordV2)

deriving instance DecidableEq for Scope, SubmitJobInput

def answeredAs (s : Server.State Redis SubmitAsk SubmitAsk.Answer (SubmissionRequest × Answer))
    (i : Nat) (q : SubmissionRequest) (p : Answer → Bool) : Bool :=
  match s.sessions[i]? with
  | some (.done a) => a.1 == q && p a.2
  | _ => false

def isJob (status : SubmitStatus) : Answer → Bool
  | .ok (s, _) => s == status
  | .error _ => false

def isConflict : Answer → Bool
  | .error (.v2 (.idempotencyConflict _)) => true
  | _ => false

def ended (s : Server.State Redis SubmitAsk SubmitAsk.Answer (SubmissionRequest × Answer)) : Bool :=
  answeredAs s 0 (scope, input "p") (isJob .created) &&
  answeredAs s 1 (scope, input "p") (isJob .replayed) &&
  answeredAs s 2 (scope, input "q") isConflict && streamIds s.store != []

theorem mem_of_answeredAs {s : Server.State Redis SubmitAsk SubmitAsk.Answer (SubmissionRequest × Answer)}
    {i : Nat} {q : SubmissionRequest} {p : Answer → Bool} (h : answeredAs s i q p = true) :
    ∃ a, .done (q, a) ∈ s.sessions ∧ p a = true := by
  unfold answeredAs at h
  split at h
  next x hx =>
    obtain ⟨hq, hp⟩ := Bool.and_eq_true_iff.1 h
    obtain rfl : x.1 = q := beq_iff_eq.1 hq
    exact ⟨x.2, List.mem_of_getElem? hx, hp⟩
  · cases h

theorem exists_ended : ∃ s, ((submissions digest).under amongCalls).Reachable s ∧ ended s = true :=
  (submissions digest).reachable_runUnder (P := amongCalls) (show Redis.empty = Redis.empty from rfl)
    steps ended (by decide +kernel)

end Resubmitted

theorem request_has_one_job_resubmitted :
    ∃ s : Server.State Redis SubmitAsk SubmitAsk.Answer (SubmissionRequest × Resubmitted.Answer),
      streamIds s.store ≠ [] ∧
      (∀ id id' job job', s.store.jobs id = some job → s.store.jobs id' = some job' →
        job.userId = job'.userId → job.workspaceId = job'.workspaceId →
        job.requestId = job'.requestId → id = id') ∧
      ((streamIds s.store).Nodup ∧ ∀ id ∈ streamIds s.store, (s.store.jobs id).isSome) ∧
      (∀ t, ((s.store.targetQueues t).map Prod.fst).Nodup) ∧
      ∀ t t' e e', e ∈ s.store.targetQueues t → e' ∈ s.store.targetQueues t' → e.1 = e'.1 → t = t' := by
  obtain ⟨s, hs, hend⟩ := Resubmitted.exists_ended
  unfold Resubmitted.ended at hend
  simp only [Bool.and_eq_true, bne_iff_ne] at hend
  exact ⟨s, hend.2, request_has_one_job hs⟩

theorem submissions_agree_resubmitted :
    ∃ s : Server.State Redis SubmitAsk SubmitAsk.Answer (SubmissionRequest × Resubmitted.Answer),
      (∃ job, .done ((Resubmitted.scope, Resubmitted.input "p"), .ok (.replayed, job)) ∈ s.sessions ∧
        ∀ status' job', .done ((Resubmitted.scope, Resubmitted.input "p"), .ok (status', job')) ∈
          s.sessions → job'.jobId = job.jobId) ∧
      businessDigestV2 Resubmitted.digest (Resubmitted.input "q") ≠
        businessDigestV2 Resubmitted.digest (Resubmitted.input "p") := by
  obtain ⟨s, hs, hend⟩ := Resubmitted.exists_ended
  unfold Resubmitted.ended at hend
  simp only [Bool.and_eq_true] at hend
  obtain ⟨⟨⟨-, hreplayed⟩, hconflict⟩, -⟩ := hend
  obtain ⟨a, ha, hok⟩ := Resubmitted.mem_of_answeredAs hreplayed
  obtain ⟨b, hb, herr⟩ := Resubmitted.mem_of_answeredAs hconflict
  unfold Resubmitted.isJob at hok
  unfold Resubmitted.isConflict at herr
  split at hok
  next status job =>
    obtain rfl : status = .replayed := beq_iff_eq.1 hok
    split at herr
    next message =>
      have same : (Resubmitted.input "q").requestId = (Resubmitted.input "p").requestId := rfl
      exact ⟨s, ⟨job, ha, fun status' job' h => ((submissions_agree hs ha rfl).1 status' job' h).1⟩,
        (submissions_agree hs ha same).2 message hb⟩
    · cases herr
  · cases hok

end Ceo.Jobs
