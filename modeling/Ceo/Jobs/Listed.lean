import Ceo.Jobs.Queue
import Ceo.Jobs.Linkage

/-!
# No queued job is lost

A queued job whose deadline is ahead is in the queue of its target. The
scripts take out only what they have just ended or found expired, and a
pruner only what it has read dead. Being dead is for good: a job never goes
back to queued, its deadline and target do not change, and the clock goes on.
-/

namespace Ceo.Jobs

open Ceo.Lib Function

/-! ### sorted sets -/

theorem mem_zrem {z : Zset} {m : String} {e : String × Nat} : e ∈ zrem z m ↔ e ∈ z ∧ e.1 ≠ m := by
  simp [zrem, List.mem_filter]

theorem mem_zinsert {z : Zset} {m : String} {score : Nat} {e : String × Nat} :
    e ∈ zinsert m score z ↔ e = (m, score) ∨ e ∈ z := by
  induction z with
  | nil => simp [zinsert]
  | cons a z ih =>
    unfold zinsert
    split
    · simp
    · rw [List.mem_cons, ih, List.mem_cons]
      tauto

theorem mem_zadd {z : Zset} {m : String} {score : Nat} {e : String × Nat} :
    e ∈ zadd z m score ↔ e = (m, score) ∨ e ∈ z ∧ e.1 ≠ m := by
  rw [zadd, mem_zinsert, mem_zrem]

/-! ### what a call does to the queues -/

/-- The job need not be in the queue of `t`, nor ever again. -/
def Dead (r : Redis) (now : Nat) (t id : String) : Prop :=
  ∃ job, r.jobs id = some job ∧
    (job.status ≠ .queued ∨ job.claimDeadlineMs ≤ now ∨ job.targetId ≠ t)

/-- What is queued now was queued before. -/
def OldQueued (r r' : Redis) : Prop :=
  ∀ id job, r'.jobs id = some job → job.status = .queued → r.jobs id = some job

section moves

variable {r r' : Redis} {now : Nat}

theorem OldQueued.of_eq (jobs : r'.jobs = r.jobs) : OldQueued r r' := fun _ _ h _ => jobs ▸ h

theorem OldQueued.write {k : String} {job : JobRecordV2}
    (jobs : r'.jobs = update r.jobs k (some (Cjson.encodeJob job))) (hs : job.status ≠ .queued) :
    OldQueued r r' := by
  intro id j h hq
  rw [jobs, update_eq_some] at h
  rcases h with ⟨-, rfl⟩ | ⟨-, h⟩
  · rw [encodeJob_status] at hq
    exact absurd hq hs
  · exact h

theorem OldQueued.of_effect {c : Call} (e : Effect now r r' c)
    (hc : ∀ job requestId, c ≠ .create job requestId) : OldQueued r r' := by
  cases e with
  | frame jobs | started _ _ _ _ _ _ jobs | recorded _ _ _ jobs => exact .of_eq jobs
  | created => exact absurd rfl (hc _ _)
  | claimed job job_at jobId workspace target isNew queued live fresh unfenced jobs =>
    exact .write jobs (by simp [claimedJob])
  | reported job att owns attemptId active phase jobs => exact .write jobs (by simp [reportedJob])
  | cancelledActive job att job_at active attempt_at expected jobId latest phase jobs =>
    exact .write jobs (by simp [cancelledJob])
  | cancelledQueued job job_at queued jobs => exact .write jobs (by simp [cancelledJob])

inductive QueueMove (now : Nat) (r r' : Redis) : Prop where
  | frame (queues : r'.targetQueues = r.targetQueues) (old : OldQueued r r')
  | added (job : JobRecordV2) (entry : StreamId) (fresh : r.jobs job.jobId = none)
    (jobs : r'.jobs = update r.jobs job.jobId (some (Cjson.encodeJob (createdJob job entry))))
    (queues : r'.targetQueues = update r.targetQueues job.targetId
      (zadd (r.targetQueues job.targetId) job.jobId job.createdAtMs))
  | removed (t id : String)
    (queues : r'.targetQueues = update r.targetQueues t (zrem (r.targetQueues t) id))
    (old : OldQueued r r') (dead : Dead r' now t id)

theorem createJob_queue (now : Nat) (job : JobRecordV2) (requestId : String) (r : Redis) :
    QueueMove now r (createJob now job requestId r).2 := by
  unfold createJob
  cases hs : serializeJobRecordV2 job with
  | error m => exact .frame rfl (.of_eq rfl)
  | ok record =>
    obtain ⟨rfl, -⟩ := parseJobRecordV2_ok hs
    simp only [v2CreateJobScript]
    cases r.requests (requestKeyV2 record.userId record.workspaceId requestId) with
    | some e => exact .frame rfl (.of_eq rfl)
    | none =>
      split_ifs with hf hj
      · exact .frame rfl (.of_eq rfl)
      · exact .frame rfl (.of_eq rfl)
      · exact .added record (r.lastStreamId.next now) (by simpa using hj) rfl rfl

theorem claimJob_queue (now : Nat) (p : ClaimParams) (r : Redis) :
    QueueMove now r (claimJob now p r).2 := by
  have hsnd : (claimJob now p r).2 = (claimScript now p r).2 := by
    unfold claimJob
    rcases claimScript now p r with ⟨_ | _, r'⟩ <;> rfl
  rw [hsnd, claimScript, v2ClaimJobScript]
  cases hj : r.jobs p.jobId with
  | none => split_ifs <;> exact .frame rfl (.of_eq rfl)
  | some job =>
    dsimp only
    split_ifs with hf hid hrep hro hst hexp hcol
    · exact .frame rfl (.of_eq rfl)
    · exact .frame rfl (.of_eq rfl)
    · exact .frame rfl (.of_eq rfl)
    · exact .frame rfl (.of_eq rfl)
    · exact .frame rfl (.of_eq rfl)
    · exact .removed p.expectedTargetId p.jobId rfl (.of_eq rfl) ⟨job, hj, .inr (.inl hexp.2)⟩
    · exact .frame rfl (.of_eq rfl)
    · refine .removed p.expectedTargetId p.jobId rfl ?_ ⟨_, update_self .., .inl (by simp)⟩
      exact @OldQueued.write r _ p.jobId (claimedJob job p.attemptId) rfl (by simp [claimedJob])

theorem cancelJob_queue (L : Linkage r) (now : Nat) (p : CancelParams) :
    QueueMove now r (cancelJob now p r).2 := by
  have hsnd : (cancelJob now p r).2 = (cancelScript now p r).2 := by
    unfold cancelJob
    rcases cancelScript now p r with ⟨_ | _, r'⟩ <;> rfl
  have hended (job : JobRecordV2) : (cancelledJob now job p).status ≠ .queued := by
    simp [cancelledJob]
  rw [hsnd, cancelScript, v2CancelJobScript]
  cases hj : r.jobs p.jobId with
  | none => exact .frame rfl (.of_eq rfl)
  | some job =>
    have withdrawn : QueueMove now r ((r.zremTargetQueue p.expectedTargetId job.jobId).setJob p.jobId
        (cancelledJob now job p)) := by
      rw [L.job_key hj]
      exact .removed p.expectedTargetId p.jobId rfl (.write rfl (hended job))
        ⟨_, update_self .., .inl (by rw [encodeJob_status]; exact hended job)⟩
    cases ha : r.attempts (cancelAttemptKey p.expectedAttemptId) with
    | none =>
      dsimp only
      split_ifs
      · exact .frame rfl (.of_eq rfl)
      · exact .frame rfl (.of_eq rfl)
      · exact .frame rfl (.of_eq rfl)
      · exact .frame rfl (.of_eq rfl)
      · exact withdrawn
    | some att =>
      dsimp only
      split_ifs
      · exact .frame rfl (.of_eq rfl)
      · exact .frame rfl (.of_eq rfl)
      · exact .frame rfl (.of_eq rfl)
      · exact .frame rfl (.of_eq rfl)
      · exact .frame rfl (.of_eq rfl)
      · exact .frame rfl (.of_eq rfl)
      · exact .frame rfl (.write rfl (hended job))
      · exact withdrawn

/-- The scripts that write records alone. -/
theorem RecordsOnly.queue {c : Call} (h : RecordsOnly r r') (e : Effect now r r' c)
    (hc : ∀ job requestId, c ≠ .create job requestId) : QueueMove now r r' := by
  refine .frame ?_ (.of_effect e hc)
  obtain ⟨jobs, attempts, rfl⟩ := h
  rfl

/-- **What one call does to the queues.** -/
theorem exec_queue (L : Linkage r) (now : Nat) {c : Call}
    (dead : ∀ t id, c = .pruneTargetQueue t id → Dead r now t id) :
    QueueMove now r (exec now r c) := by
  cases c with
  | create job requestId => exact createJob_queue now job requestId r
  | claim p => exact claimJob_queue now p r
  | cancel p => exact cancelJob_queue L now p
  | start p => exact (startJob_recordsOnly now p r).queue (exec_effect now r (.start p)) (by simp)
  | report p rep =>
    exact (reportJob_recordsOnly now p rep r).queue (exec_effect now r (.report p rep)) (by simp)
  | recordResult p result mode =>
    exact (recordJobResult_recordsOnly now p result mode r).queue
      (exec_effect now r (.recordResult p result mode)) (by simp)
  | setFence t f => exact .frame rfl (.of_eq rfl)
  | pruneTargetQueue t id => exact .removed t id rfl (.of_eq rfl) (dead t id rfl)

theorem Effect.jobs_there {c : Call} (e : Effect now r r' c) {id : String}
    (h : r.jobs id ≠ none) : r'.jobs id ≠ none := by
  have write (k : String) (j : JobRecordV2) (jobs : r'.jobs = update r.jobs k (some j)) :
      r'.jobs id ≠ none := by
    rw [jobs, update_apply]
    split
    · simp
    · exact h
  cases e with
  | frame jobs | started _ _ _ _ _ _ jobs | recorded _ _ _ jobs => exact jobs ▸ h
  | created _ _ _ jobs | claimed _ _ _ _ _ _ _ _ _ _ jobs | reported _ _ _ _ _ _ jobs
  | cancelledActive _ _ _ _ _ _ _ _ _ jobs | cancelledQueued _ _ _ jobs => exact write _ _ jobs

/-- A job that is there and queued after a call was queued before it. -/
theorem Effect.old {c : Call} (e : Effect now r r' c) {id : String} {job : JobRecordV2}
    (hid : r.jobs id ≠ none) (h : r'.jobs id = some job) (hq : job.status = .queued) :
    r.jobs id = some job := by
  cases c with
  | create j requestId =>
    cases e with
    | frame jobs => exact jobs ▸ h
    | created entry accepted fresh jobs =>
      rwa [jobs, update_of_ne] at h
      rintro rfl
      exact hid fresh
  | _ => exact OldQueued.of_effect e (by simp) id job h hq

theorem Dead.step {c : Call} (e : Effect now r r' c) {clock : Nat} {t id : String}
    (h : Dead r clock t id) (hle : clock ≤ now) : Dead r' now t id := by
  obtain ⟨job, hj, hd⟩ := h
  have hid : r.jobs id ≠ none := by simp [hj]
  obtain ⟨job', hj'⟩ := Option.ne_none_iff_exists'.1 (e.jobs_there hid)
  refine ⟨job', hj', ?_⟩
  by_cases hq : job'.status = .queued
  · have hold := e.old hid hj' hq
    rw [hj] at hold
    obtain rfl := Option.some.inj hold
    rcases hd with hs | hdl | ht
    · exact .inl hs
    · exact .inr (.inl (hdl.trans hle))
    · exact .inr (.inr ht)
  · exact .inl hq

end moves

/-! ### the invariant -/

structure Listed (w : World) : Prop where
  linkage : Linkage w.redis
  there {t m : String} {score : Nat} :
    (m, score) ∈ w.redis.targetQueues t → w.redis.jobs m ≠ none
  listed {id : String} {job : JobRecordV2} : w.redis.jobs id = some job → job.status = .queued →
    w.clock < job.claimDeadlineMs →
    ∃ score, (id, score) ∈ w.redis.targetQueues job.targetId ∧ job.createdAtMs = Cjson.num score

namespace Listed

variable {w : World}

theorem empty {w : World} (h : w.redis = Redis.empty) : Listed w where
  linkage := h ▸ Linkage.empty
  there hm := by simp [h, Redis.empty] at hm
  listed hj := by simp [h, Redis.empty] at hj

/-- **A call keeps the queues**, if what it prunes is dead. -/
theorem step (I : Listed w) {now : Nat} {c : Call} (hle : w.clock ≤ now)
    (dead : ∀ t id, c = .pruneTargetQueue t id → Dead w.redis now t id) :
    Listed ⟨exec now w.redis c, now⟩ := by
  have e := exec_effect now w.redis c
  refine ⟨I.linkage.step e, fun {t m score} hm => ?_, fun {id job} hj hq hd => ?_⟩
  · cases exec_queue I.linkage now dead with
    | frame queues old => exact e.jobs_there (I.there (queues ▸ hm))
    | added j entry fresh jobs queues =>
      dsimp only at hm ⊢
      rw [queues] at hm
      by_cases ht : t = j.targetId
      · subst ht
        rw [update_self, mem_zadd] at hm
        rcases hm with hm | ⟨hm, -⟩
        · cases hm
          simp [jobs]
        · exact e.jobs_there (I.there hm)
      · rw [update_of_ne ht] at hm
        exact e.jobs_there (I.there hm)
    | removed t' id queues old dead =>
      dsimp only at hm ⊢
      rw [queues] at hm
      by_cases ht : t = t'
      · subst ht
        rw [update_self, mem_zrem] at hm
        exact e.jobs_there (I.there hm.1)
      · rw [update_of_ne ht] at hm
        exact e.jobs_there (I.there hm)
  · dsimp only at hj hd ⊢
    cases exec_queue I.linkage now dead with
    | frame queues old =>
      rw [queues]
      exact I.listed (old id job hj hq) hq (lt_of_le_of_lt hle hd)
    | added j entry fresh jobs queues =>
      rw [queues]
      by_cases hid : id = j.jobId
      · subst hid
        rw [jobs, update_self] at hj
        cases hj
        refine ⟨j.createdAtMs, ?_, by simp [Cjson.encodeJob, createdJob]⟩
        simp only [encodeJob_targetId, createdJob, update_self]
        exact mem_zadd.2 (.inl rfl)
      · rw [jobs, update_of_ne hid] at hj
        obtain ⟨score, hm, hs⟩ := I.listed hj hq (lt_of_le_of_lt hle hd)
        refine ⟨score, ?_, hs⟩
        rw [update_apply]
        split
        next ht => exact mem_zadd.2 (.inr ⟨ht ▸ hm, hid⟩)
        next => exact hm
    | removed t m queues old dead =>
      rw [queues]
      have hold := old id job hj hq
      obtain ⟨score, hm, hs⟩ := I.listed hold hq (lt_of_le_of_lt hle hd)
      refine ⟨score, ?_, hs⟩
      rw [update_apply]
      split
      next ht =>
        refine mem_zrem.2 ⟨ht ▸ hm, ?_⟩
        rintro rfl
        -- what is dead is not this job
        obtain ⟨j, hj', hdead⟩ := dead
        rw [hj] at hj'
        obtain rfl := Option.some.inj hj'
        rcases hdead with hs | hdl | hne
        · exact hs hq
        · omega
        · exact hne ht
      next => exact hm

end Listed

/-! ### the pruners remove what is dead -/

/-- A pruned job is dead, whoever prunes it. -/
def listed : Contract World QueueAsk QueueChoice (Nat × Call) where
  policy :=
    ⟨fun _ _ _ => True, fun _ _ => True, fun _ => True,
      fun w a => ∀ t id, a.2 = .pruneTargetQueue t id → Dead w.redis w.clock t id⟩
  inv := Listed
  needs w
    | .pruneTargetQueue t ids => ∀ id ∈ ids, Dead w.redis w.clock t id
    | _ => True

section steps

variable {w w' : World} {A : World → Prop}

theorem Dead.later {r : Redis} {clock now : Nat} {t id : String} (h : Dead r clock t id)
    (hle : clock ≤ now) : Dead r now t id := by
  obtain ⟨job, hj, hd⟩ := h
  exact ⟨job, hj, hd.imp_right (Or.imp_left (·.trans hle))⟩

theorem stable_of_exec
    (step : ∀ w now c, A w → w.clock ≤ now →
      (∀ t id, c = .pruneTargetQueue t id → Dead w.redis w.clock t id) →
      A ⟨exec now w.redis c, now⟩) :
    queues.Stable listed.policy A := by
  rintro w a w' hA hp hw
  simp only [queues] at hw
  split at hw
  · cases hw
    exact step w a.1 a.2 hA ‹_› hp
  · cases hw

theorem rely_exec {now : Nat} {c : Call} (hle : w.clock ≤ now)
    (hc : ∀ t id, c = .pruneTargetQueue t id → Dead w.redis w.clock t id) :
    queues.Rely listed.policy w ⟨exec now w.redis c, now⟩ :=
  .single ⟨(now, c), hc, if_pos hle⟩

/-- The clock goes on. -/
theorem rely_tick {now : Nat} (hle : w.clock ≤ now) :
    queues.Rely listed.policy w ⟨w.redis, now⟩ := by
  have h := rely_exec (c := .setFence "" (w.redis.fences "")) hle (fun _ _ h => by cases h)
  simpa only [exec, update_eq_self] using h

theorem rely_prune {t : String} {ids : List String} (h : ∀ id ∈ ids, Dead w.redis w.clock t id) :
    queues.Rely listed.policy w ⟨pruneTargetQueue w.redis t ids, w.clock⟩ := by
  induction ids generalizing w with
  | nil => exact .refl
  | cons id ids ih =>
    have hfirst : queues.Rely listed.policy w ⟨w.redis.zremTargetQueue t id, w.clock⟩ := by
      refine rely_exec (c := .pruneTargetQueue t id) le_rfl fun t' id' he => ?_
      cases he
      exact h id (by simp)
    exact hfirst.trans (@ih ⟨w.redis.zremTargetQueue t id, w.clock⟩ fun i hi => h i (by simp [hi]))

theorem serveQueue_some {e : QueueAsk} {x : QueueChoice} {a : e.Answer}
    (h : serveQueue w e x = some (a, w')) :
    w.clock ≤ x.now ∧ a = (answerQueue w.redis x e).1 ∧ w' = ⟨(answerQueue w.redis x e).2, x.now⟩ := by
  unfold serveQueue at h
  split at h
  · cases h
    exact ⟨‹_›, rfl, rfl⟩
  · cases h

end steps

theorem queues_served : queues.Served amongScripts listed where
  init _ hw := Listed.empty hw
  replies _ _ _ _ := trivial
  surrounds w a ha t id hc := by
    simp only [amongScripts, hc, Call.isPrune] at ha
    cases ha
  fits w e x a w' _ hneed _ hserve := by
    obtain ⟨hle, -, rfl⟩ := serveQueue_some hserve
    cases e with
    | touchTargetDeleteFence t token =>
      show queues.Rely listed.policy w ⟨(touchTargetDeleteFence x.now t token w.redis).2, x.now⟩
      unfold touchTargetDeleteFence
      split
      · exact rely_tick hle
      · split
        · exact rely_exec (c := .setFence t (some ⟨x.now, token, _⟩)) hle fun _ _ h => by cases h
        · exact rely_tick hle
    | pruneTargetQueue t ids =>
      show queues.Rely listed.policy w
        ⟨if x.fails then w.redis else pruneTargetQueue w.redis t ids, x.now⟩
      split
      · exact rely_tick hle
      · exact (rely_tick hle).trans
          (@rely_prune ⟨w.redis, x.now⟩ t ids fun id hid => (hneed id hid).later hle)
    | _ => exact rely_tick hle
  kept := stable_of_exec fun w now c I hle hp =>
    I.step hle fun t id hc => (hp t id hc).later hle

/-! ### what the methods know -/

abbrev QueueSafe (m : QueueMethod) (w : World) : Prop :=
  Safe queues.toSurroundings listed (fun _ _ => True) m w

/-- The clock has passed `nowMs`, and these jobs are stored. -/
def Stored (nowMs : Nat) (ids : List String) (w : World) : Prop :=
  nowMs ≤ w.clock ∧ ∀ id ∈ ids, w.redis.jobs id ≠ none

/-- The clock has passed `nowMs`, and these jobs are dead in the queue of `t`. -/
def Found (nowMs : Nat) (t : String) (ids : List String) (w : World) : Prop :=
  nowMs ≤ w.clock ∧ ∀ id ∈ ids, Dead w.redis w.clock t id

section knowledge

variable {nowMs : Nat} {t : String} {ids : List String} {w w' : World}

theorem stored_stable : queues.Stable listed.policy (Stored nowMs ids) :=
  stable_of_exec fun _ now c h hle _ => ⟨h.1.trans hle, fun id hid =>
    (exec_effect now _ c).jobs_there (h.2 id hid)⟩

theorem found_stable : queues.Stable listed.policy (Found nowMs t ids) :=
  stable_of_exec fun _ now c h hle _ => ⟨h.1.trans hle, fun id hid =>
    (h.2 id hid).step (exec_effect now _ c) hle⟩

/-- What is known of the store when a call is answered is known when its program goes on. -/
theorem QueueSafe.call {P : World → Prop} (hP : queues.Stable listed.policy P) (hw : P w)
    {e : QueueAsk} {k : e.Answer → QueueMethod}
    (need : ∀ w', P w' → listed.needs w' e)
    (next : ∀ w' x, P w' → P ⟨(answerQueue w'.redis x e).2, x.now⟩ → Listed w' → w'.clock ≤ x.now →
      QueueSafe (k (answerQueue w'.redis x e).1) ⟨(answerQueue w'.redis x e).2, x.now⟩) :
    QueueSafe (.call e k) w := by
  intro w₁ h₁ hI
  have hP₁ := hP.rely h₁ hw
  refine ⟨need w₁ hP₁, fun x a w₂ _ hserve _ => ?_⟩
  have hrely := queues_served.fits w₁ e x a w₂ hI (need w₁ hP₁) trivial hserve
  obtain ⟨hle, rfl, rfl⟩ := serveQueue_some hserve
  exact next w₁ x hP₁ (hP.rely hrely hP₁) hI hle

theorem safe_prune {B : World → Prop} (hB : queues.Stable listed.policy B)
    {k : Unit → QueueMethod} (h : Found nowMs t ids w) (hb : B w)
    (next : ∀ w', B w' → QueueSafe (k ()) w') :
    QueueSafe (.call (.pruneTargetQueue t ids) k) w :=
  QueueSafe.call (found_stable.and hB) ⟨h, hb⟩ (fun _ hP => hP.1.2) fun _ _ _ hP _ _ =>
    next _ hP.2

/-- One job is read, and found dead or left alone. -/
theorem safe_getJob {B : World → Prop} (hB : queues.Stable listed.policy B) (hb : B w) {id : String}
    {k : Except V2Error (Option JobRecordV2) → QueueMethod}
    (error : ∀ e w', QueueSafe (k (.error e)) w')
    (missing : ∀ w', B w' → w'.redis.jobs id = none → QueueSafe (k (.ok none)) w')
    (found : ∀ w' job, B w' → Listed w' → w'.redis.jobs id = some job →
      QueueSafe (k (.ok (some job))) w') :
    QueueSafe (.call (.getJob id) k) w := by
  refine QueueSafe.call hB hb (fun _ _ => trivial) fun w' x _ hP hI hle => ?_
  show QueueSafe (k (getJob w'.redis id)) ⟨w'.redis, x.now⟩
  have hI' : Listed ⟨w'.redis, x.now⟩ := queues_served.kept.rely (rely_tick hle) hI
  rcases hg : getJob w'.redis id with e | ⟨_ | job⟩
  · exact error e _
  · exact missing _ hP (getJob_stored hg)
  · exact found _ job hP hI' (getJob_stored hg)

/-! ### getPendingJobs -/

theorem safe_pendingJobs (limit : Nat) {cs : List Candidate} {results : List PendingJobSummary}
    (h : Stored nowMs (cs.map (·.jobId)) w) :
    QueueSafe (JobCoordinatorV2.pendingJobs nowMs limit cs results) w := by
  induction cs generalizing results w with
  | nil => trivial
  | cons c cs ih =>
    unfold JobCoordinatorV2.pendingJobs
    dsimp only
    split
    · trivial
    have rest (w : World) (h : Stored nowMs ((c :: cs).map (·.jobId)) w) :
        Stored nowMs (cs.map (·.jobId)) w := ⟨h.1, fun id hid => h.2 id (by simp [hid])⟩
    refine safe_getJob stored_stable h (fun e w' => trivial) ?_ ?_
    · -- a candidate has been in a queue, so it is stored
      intro w' hP hn
      exact absurd hn (hP.2 c.jobId (by simp))
    · intro w' job hP _ hj
      have prune (hd : job.status ≠ .queued ∨ job.claimDeadlineMs ≤ nowMs ∨ job.targetId ≠ c.targetId) :
          QueueSafe (.call (.pruneTargetQueue c.targetId [c.jobId]) fun _ =>
            JobCoordinatorV2.pendingJobs nowMs limit cs results) w' := by
        refine safe_prune stored_stable ⟨hP.1, fun id hid => ?_⟩ (rest w' hP) fun w'' h => ih h
        rw [List.mem_singleton.1 hid]
        exact ⟨job, hj, hd.imp_right (Or.imp_left (·.trans hP.1))⟩
      show QueueSafe (if job.status ≠ .queued then _ else _) w'
      by_cases hs : job.status ≠ .queued
      · rw [if_pos hs]
        exact prune (.inl hs)
      rw [if_neg hs]
      by_cases hd : 0 < job.claimDeadlineMs ∧ job.claimDeadlineMs ≤ nowMs
      · rw [if_pos hd]
        exact prune (.inr (.inl hd.2))
      rw [if_neg hd]
      by_cases ht : job.targetId ≠ c.targetId
      · rw [if_pos ht]
        exact prune (.inr (.inr ht))
      rw [if_neg ht]
      split
      · exact ih (rest w' hP)
      · trivial
      · trivial

theorem safe_collectCandidates {limit : Nat} {next : List Candidate → QueueMethod}
    (hnext : ∀ cs w, Stored 0 (cs.map (·.jobId)) w → QueueSafe (next cs) w) {ts : List String}
    {cs : List Candidate} (h : Stored 0 (cs.map (·.jobId)) w) :
    QueueSafe (JobCoordinatorV2.collectCandidates limit next ts cs) w := by
  induction ts generalizing cs w with
  | nil => exact hnext cs w h
  | cons t ts ih =>
    refine QueueSafe.call stored_stable h (fun _ _ => trivial) fun w' x hP _ hI _ => ?_
    refine ih ⟨Nat.zero_le _, fun id hid => ?_⟩
    change id ∈ (cs ++ getQueuedJobIdsForTarget w'.redis t limit).map (·.jobId) at hid
    rw [List.map_append, List.mem_append] at hid
    rcases hid with hid | hid
    · exact hP.2 id hid
    · obtain ⟨c, hc, rfl⟩ := List.mem_map.1 hid
      obtain ⟨e, he, rfl⟩ := List.mem_map.1 hc
      exact hI.there (List.mem_of_mem_take he)

theorem safe_getPendingJobs (targets : List String) (limit : Int) :
    QueueSafe (JobCoordinatorV2.getPendingJobs targets limit) w := by
  unfold JobCoordinatorV2.getPendingJobs
  dsimp only
  split
  · trivial
  refine safe_collectCandidates (fun cs w h => ?_) ⟨Nat.zero_le _, by simp⟩
  refine QueueSafe.call stored_stable h (fun _ _ => trivial) fun w' x _ hP _ _ => ?_
  refine safe_pendingJobs _ ⟨le_rfl, fun id hid => ?_⟩
  obtain ⟨c, hc, rfl⟩ := List.mem_map.1 hid
  exact hP.2 c.jobId (List.mem_map.2 ⟨c, (List.mergeSort_perm cs _).mem_iff.1 hc, rfl⟩)

/-! ### verifyTargetQuiescence -/

theorem safe_quiescence (s : TargetDelete.Scan) : QueueSafe (TargetDelete.quiescence s) w := trivial

theorem safe_pruneExpired {s : TargetDelete.Scan} (h : Found nowMs t s.expiredQueuedIds w) :
    QueueSafe (TargetDelete.pruneExpired t s) w := by
  unfold TargetDelete.pruneExpired
  split
  · exact safe_quiescence s
  · exact safe_prune (B := fun _ => True) (fun _ _ _ _ _ _ => trivial) h trivial fun _ _ =>
      safe_quiescence s

theorem safe_scanJob {job : JobRecordV2} {s : TargetDelete.Scan} {next : TargetDelete.Scan → QueueMethod}
    (hnext : ∀ s w, Found nowMs t s.expiredQueuedIds w → QueueSafe (next s) w)
    (h : Found nowMs t s.expiredQueuedIds w) (hj : w.redis.jobs job.jobId = some job) :
    QueueSafe (TargetDelete.scanJob nowMs job s next) w := by
  unfold TargetDelete.scanJob
  split
  · exact hnext _ _ h
  · split
    next hd =>
      refine hnext _ _ ⟨h.1, fun id hid => ?_⟩
      rcases List.mem_append.1 hid with hid | hid
      · exact h.2 id hid
      · rw [List.mem_singleton.1 hid]
        exact ⟨job, hj, .inr (.inl (hd.2.trans h.1))⟩
    next => exact hnext _ _ h
  · split
    · exact hnext _ _ h
    · refine QueueSafe.call found_stable h (fun _ _ => trivial) fun w' x _ hP _ _ => ?_
      generalize (answerQueue w'.redis x (.getAttempt _)).1 = answer
      rcases answer with e | ⟨_ | attempt⟩
      · trivial
      · exact hnext _ _ hP
      · show QueueSafe (if attempt.phase = .running then next (s.running job.jobId)
          else next (s.claimed job.jobId)) _
        split
        · exact hnext _ _ hP
        · exact hnext _ _ hP
  · exact hnext _ _ h

theorem safe_scanBatch {next : TargetDelete.Scan → QueueMethod}
    (hnext : ∀ s w, Found nowMs t s.expiredQueuedIds w → QueueSafe (next s) w)
    {batch : List (StreamId × JobStreamEntryV2)} {s : TargetDelete.Scan}
    (h : Found nowMs t s.expiredQueuedIds w) :
    QueueSafe (TargetDelete.scanBatch nowMs t next batch s) w := by
  induction batch generalizing s w with
  | nil => exact hnext s w h
  | cons e batch ih =>
    unfold TargetDelete.scanBatch
    split
    · exact ih h
    refine safe_getJob found_stable h (fun e w' => trivial) (fun w' hP _ => ih hP) ?_
    intro w' job hP hI hj
    exact safe_scanJob (fun s w h => ih h) hP (hI.linkage.job_key hj ▸ hj)

theorem safe_scanLoop (token : String) {batches : Nat} {cursor : Option StreamId} {s : TargetDelete.Scan}
    (h : Found nowMs t s.expiredQueuedIds w) :
    QueueSafe (TargetDelete.scanLoop nowMs t token batches cursor s) w := by
  induction batches generalizing cursor s w with
  | zero => trivial
  | succ batches ih =>
    unfold TargetDelete.scanLoop
    refine QueueSafe.call found_stable h (fun _ _ => trivial) fun w' x _ hP _ _ => ?_
    split
    · exact safe_pruneExpired hP
    refine safe_scanBatch (fun s w h => ?_) hP
    refine QueueSafe.call found_stable h (fun _ _ => trivial) fun w' x _ hP _ _ => ?_
    split
    · exact safe_pruneExpired hP
    · exact ih hP

theorem safe_verifyTargetQuiescence (targetId token : String) (batches : Nat) :
    QueueSafe (TargetDelete.verifyTargetQuiescence targetId token batches) w := by
  refine QueueSafe.call (P := fun _ => True) (fun _ _ _ _ _ _ => trivial) trivial
    (fun _ _ => trivial) fun w' x _ _ _ _ => ?_
  exact safe_scanLoop token ⟨le_rfl, fun id hid => (by cases hid)⟩

end knowledge

/-- The job is created, then a poller reads its queue and the job. -/
def pollSteps : List (Server.Label QueueChoice (Nat × Call) QueueRequest) :=
  [.surround (1000, .create sampleJob sampleJob.requestId),
   .accept (.getPendingJobs [sampleJob.targetId] 20), .reply 0 ⟨2000, false⟩, .reply 0 ⟨2001, false⟩,
   .reply 0 ⟨2002, false⟩]

/-- The job of that id is queued, and its deadline is ahead. -/
def waits (id : String) (w : World) : Bool :=
  (w.redis.jobs id).any fun job => job.status == .queued && w.clock < job.claimDeadlineMs

/-- A job of a time with more than 14 digits. -/
def lateJob : JobRecordV2 :=
  { sampleJob with createdAtMs := 100000000000001, claimDeadlineMs := 100000604800001 }

/-- The queue of `lateJob` has it at the time it was created, its record at a rounded one. -/
def scoredApart (w : World) : Bool :=
  (w.redis.jobs lateJob.jobId).any fun job =>
    job.status == .queued && w.clock < job.claimDeadlineMs &&
      !(w.redis.targetQueues job.targetId).contains (job.jobId, job.createdAtMs)

end Ceo.Jobs
