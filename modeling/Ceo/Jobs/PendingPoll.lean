import Mathlib.Data.List.Nodup
import Mathlib.Data.List.Perm.Subperm
import Ceo.Jobs.Listed
import Ceo.Jobs.Listing

/-!
# What a poll for pending jobs finds

`getPendingJobs` takes the head of each target's queue, as many rows as it may
answer with, and drops the dead ones afterwards. A live job behind them is not
looked at, so a poll can miss jobs that wait and answer with fewer than it
may. This module says of each store when it does.
-/

namespace Ceo.Jobs

open Ceo.Lib

/-! ### one poll of one store -/

def boundedLimit (limit : Int) : Nat := (min (max 1 limit) 50).toNat

/-- The candidates, oldest first. -/
def pendingCandidates (r : Redis) (targets : List String) (bound : Nat) : List Candidate :=
  (targets.flatMap fun t => getQueuedJobIdsForTarget r t bound).mergeSort
    fun a b => a.createdAtMs ≤ b.createdAtMs

theorem getPendingJobs_at (control : Control) (deviceId : String) (limit : Int) (nowMs : Nat)
    (r : Redis) :
    getPendingJobs control deviceId limit nowMs (fun _ => r) =
      pendingLoop nowMs (boundedLimit limit) (fun _ => r)
        (pendingCandidates r (control.eligibleTargets deviceId) (boundedLimit limit))
        (control.eligibleTargets deviceId).length [] := by
  have hmap (l : List String) (f : String → List Candidate) (k : Nat) :
      ((l.zipIdx k).map fun t => f t.1) = l.map f := by
    induction l generalizing k with
    | nil => rfl
    | cons a l ih => rw [List.zipIdx_cons, List.map_cons, ih, List.map_cons]
  unfold getPendingJobs pendingCandidates
  rw [List.flatMap_def]
  dsimp only
  rw [hmap (control.eligibleTargets deviceId) fun t => getQueuedJobIdsForTarget r t _]
  rfl

/-- What the poll shows for a candidate, if anything. -/
def shownOf (r : Redis) (nowMs : Nat) (c : Candidate) : Option PendingJobSummary :=
  match pendingJob c.targetId nowMs c.jobId r with
  | .ok o => o
  | .error _ => none

/-- The job of a candidate cannot be read, or its times cannot be shown. -/
def Unreadable (r : Redis) (nowMs : Nat) (c : Candidate) : Prop :=
  ∃ e, pendingJob c.targetId nowMs c.jobId r = .error e

/-- An unreadable candidate stands before the first `bound` jobs that are shown. -/
def FailsEarly (r : Redis) (nowMs bound : Nat) (cs : List Candidate) : Prop :=
  ∃ pre c post, cs = pre ++ c :: post ∧ Unreadable r nowMs c ∧
    (pre.filterMap (shownOf r nowMs)).length < bound

section loop

variable {r : Redis} {nowMs bound : Nat} {c : Candidate} {cs : List Candidate}

theorem failsEarly_cons (h : ¬Unreadable r nowMs c) :
    FailsEarly r nowMs bound (c :: cs) ↔
      FailsEarly r nowMs (bound - (shownOf r nowMs c).toList.length) cs := by
  have hcount (pre : List Candidate) : ((c :: pre).filterMap (shownOf r nowMs)).length =
      (shownOf r nowMs c).toList.length + (pre.filterMap (shownOf r nowMs)).length := by
    rw [List.filterMap_cons]
    cases shownOf r nowMs c <;> simp [Nat.add_comm]
  constructor
  · rintro ⟨pre, d, post, hsplit, hd, hlt⟩
    cases pre with
    | nil =>
      cases hsplit
      exact absurd hd h
    | cons a pre =>
      rw [List.cons_append, List.cons.injEq] at hsplit
      obtain ⟨rfl, rfl⟩ := hsplit
      rw [hcount] at hlt
      exact ⟨pre, d, post, rfl, hd, by omega⟩
  · rintro ⟨pre, d, post, rfl, hd, hlt⟩
    exact ⟨c :: pre, d, post, rfl, hd, by rw [hcount]; omega⟩

/-- **The loop answers with the first jobs that are shown**, unless it meets an unreadable
candidate before it has them. -/
theorem pendingLoop_at (cs : List Candidate) (k : Nat) (results : List PendingJobSummary) :
    (∃ e, pendingLoop nowMs bound (fun _ => r) cs k results = .error e) ∧
        FailsEarly r nowMs (bound - results.length) cs ∨
      pendingLoop nowMs bound (fun _ => r) cs k results =
          .ok (results ++ (cs.filterMap (shownOf r nowMs)).take (bound - results.length)) ∧
        ¬FailsEarly r nowMs (bound - results.length) cs := by
  induction cs generalizing k results with
  | nil =>
    refine .inr ⟨by simp [pendingLoop, pure, Except.pure], ?_⟩
    rintro ⟨pre, c, post, h, -⟩
    simp at h
  | cons c cs ih =>
    unfold pendingLoop
    by_cases hfull : bound ≤ results.length
    · rw [if_pos hfull]
      refine .inr ⟨?_, ?_⟩
      · rw [Nat.sub_eq_zero_of_le hfull, List.take_zero, List.append_nil]
        rfl
      · rintro ⟨pre, d, post, -, -, hlt⟩
        omega
    rw [if_neg hfull]
    cases hp : pendingJob c.targetId nowMs c.jobId r with
    | error e =>
      refine .inl ⟨⟨e, rfl⟩, [], c, cs, rfl, ⟨e, hp⟩, ?_⟩
      rw [List.filterMap_nil, List.length_nil]
      omega
    | ok o =>
      have hread : ¬Unreadable r nowMs c := by
        rintro ⟨e, he⟩
        rw [hp] at he
        cases he
      have hshown : shownOf r nowMs c = o := by rw [shownOf, hp]
      rw [failsEarly_cons hread, hshown, List.filterMap_cons, hshown]
      cases o with
      | none => exact ih (k + 1) results
      | some job =>
        have hsub : bound - (results ++ [job]).length = bound - results.length - 1 := by
          rw [List.length_append, List.length_singleton]
          omega
        have htake : (job :: cs.filterMap (shownOf r nowMs)).take (bound - results.length) =
            job :: (cs.filterMap (shownOf r nowMs)).take (bound - results.length - 1) := by
          obtain ⟨n, hn⟩ : ∃ n, bound - results.length = n + 1 :=
            ⟨bound - results.length - 1, by omega⟩
          rw [hn, List.take_succ_cons, Nat.add_sub_cancel]
        have h := ih (k + 1) (results ++ [job])
        rw [hsub, List.append_assoc, List.singleton_append, ← htake] at h
        exact h

end loop

/-! ### the jobs that wait -/

/-- A job that waits for a device with these targets: queued, and not expired. -/
structure Waits (r : Redis) (targets : List String) (nowMs : Nat) (job : JobRecordV2) : Prop where
  stored : r.jobs job.jobId = some job
  queued : job.status = .queued
  ahead : nowMs < job.claimDeadlineMs
  target : job.targetId ∈ targets

def pendingSummary (job : JobRecordV2) : PendingJobSummary :=
  ⟨job.jobId, job.workspaceId, job.targetId, job.resourceId, job.createdAtMs,
    some job.claimDeadlineMs⟩

/-- The jobs are the oldest of those that wait, in the order they were created, and fewer than
`bound` only if no more wait. -/
structure OldestWaiting (r : Redis) (targets : List String) (nowMs bound : Nat)
    (results : List PendingJobSummary) : Prop where
  waits : ∀ x ∈ results, ∃ job, Waits r targets nowMs job ∧ x = pendingSummary job
  nodup : (results.map (·.jobId)).Nodup
  ordered : results.Pairwise fun x y => x.createdAt ≤ y.createdAt
  bounded : results.length ≤ bound
  full : results.length < bound →
    ∀ job, Waits r targets nowMs job → pendingSummary job ∈ results
  oldest : ∀ job, Waits r targets nowMs job → pendingSummary job ∉ results →
    ∀ x ∈ results, x.createdAt ≤ job.createdAtMs

/-- The poll looks at the job: it is in the head of its target's queue. -/
def InHead (r : Redis) (bound : Nat) (job : JobRecordV2) : Prop :=
  job.jobId ∈ ((r.targetQueues job.targetId).take bound).map Prod.fst

/-- There are `bound` jobs in the heads that wait and are as old as this one. -/
def Outwaited (r : Redis) (targets : List String) (nowMs bound : Nat) (job : JobRecordV2) : Prop :=
  ∃ older : List JobRecordV2, older.length = bound ∧ (older.map (·.jobId)).Nodup ∧
    ∀ j ∈ older, Waits r targets nowMs j ∧ InHead r bound j ∧ j.createdAtMs ≤ job.createdAtMs

/-- No job is hidden: behind the head of its queue, and in turn for the answer. -/
def NoneHidden (r : Redis) (targets : List String) (nowMs bound : Nat) : Prop :=
  ∀ job, Waits r targets nowMs job → InHead r bound job ∨ Outwaited r targets nowMs bound job

/-- What every store of the server keeps to: queues are sorted sets, and list the jobs that wait. -/
structure QueuesOk (w : World) : Prop where
  listed : Listed w
  sorted (t : String) : (w.redis.targetQueues t).Pairwise fun a b => a.2 ≤ b.2
  members (t : String) : ((w.redis.targetQueues t).map Prod.fst).Nodup

theorem toIso_ok {ms n : Nat} (h : toIso ms = .ok n) : n = ms := by
  unfold toIso at h
  split_ifs at h
  exact (Except.ok.inj h).symm

/-- A record that is read was accepted, so its deadline is a time. -/
theorem getJob_deadline {r : Redis} {id : String} {job : JobRecordV2}
    (h : getJob r id = .ok (some job)) : r.jobs id = some job ∧ 0 < job.claimDeadlineMs := by
  have hstored := getJob_stored h
  refine ⟨hstored, ?_⟩
  rcases getJob_of_some hstored with ⟨-, hacc⟩ | ⟨⟨m, hm⟩, -⟩
  · have hguard := hacc ⟨job.createdAtMs < job.claimDeadlineMs &&
      job.claimDeadlineMs ≤ maxSafeInteger, "Invalid job record: 'claim_deadline_ms' must be a " ++
        "safe integer greater than created_at_ms."⟩ (by simp [jobRecordGuards, jobFieldGuards])
    simp only [Bool.and_eq_true, decide_eq_true_eq] at hguard
    omega
  · rw [h] at hm
    cases hm

theorem pendingJob_shown {r : Redis} {t id : String} {nowMs : Nat} {x : PendingJobSummary}
    (h : pendingJob t nowMs id r = .ok (some x)) :
    ∃ job, r.jobs id = some job ∧ job.status = .queued ∧ nowMs < job.claimDeadlineMs ∧
      job.targetId = t ∧ x = pendingSummary job := by
  obtain ⟨o, hget, h⟩ := bind_eq_ok.1 h
  cases o with
  | none => cases h
  | some job =>
    obtain ⟨hstored, hpos⟩ := getJob_deadline hget
    dsimp only at h
    by_cases hs : job.status ≠ .queued
    · rw [if_pos hs] at h
      cases h
    rw [if_neg hs] at h
    by_cases hd : 0 < job.claimDeadlineMs ∧ job.claimDeadlineMs ≤ nowMs
    · rw [if_pos hd] at h
      cases h
    rw [if_neg hd] at h
    by_cases ht : job.targetId ≠ t
    · rw [if_pos ht] at h
      cases h
    rw [if_neg ht, if_pos hpos] at h
    obtain ⟨createdAt, hc, h⟩ := bind_eq_ok.1 h
    obtain ⟨expiresAt, he, h⟩ := bind_eq_ok.1 h
    obtain rfl := toIso_ok hc
    cases hi : toIso job.claimDeadlineMs with
    | error e =>
      simp only [toIsoOpt, hi, Except.map] at he
      cases he
    | ok n =>
      simp only [toIsoOpt, hi, Except.map] at he
      cases he
      obtain rfl := toIso_ok hi
      cases h
      exact ⟨job, hstored, not_not.1 hs, by omega, not_not.1 ht, rfl⟩

/-- The poll shows a job that waits, if it looks at it and can read it. -/
theorem shownOf_waits {r : Redis} {targets : List String} {nowMs : Nat} {job : JobRecordV2}
    (h : Waits r targets nowMs job) {c : Candidate} (hid : c.jobId = job.jobId)
    (ht : c.targetId = job.targetId) (hread : ¬Unreadable r nowMs c) :
    shownOf r nowMs c = some (pendingSummary job) := by
  cases hp : pendingJob c.targetId nowMs c.jobId r with
  | error e => exact absurd ⟨e, hp⟩ hread
  | ok o =>
    rw [shownOf, hp]
    cases o with
    | some x =>
      obtain ⟨job', hj, -, -, -, rfl⟩ := pendingJob_shown hp
      rw [hid, h.stored] at hj
      obtain rfl := Option.some.inj hj
      rfl
    | none =>
      obtain ⟨o, hget, hp⟩ := bind_eq_ok.1 hp
      have hstored := getJob_stored hget
      rw [hid, h.stored] at hstored
      subst hstored
      dsimp only at hp
      have ha := h.ahead
      rw [if_neg (not_not.2 h.queued), if_neg (by omega), if_neg (not_not.2 ht.symm)] at hp
      obtain ⟨_, -, hp⟩ := bind_eq_ok.1 hp
      obtain ⟨_, -, hp⟩ := bind_eq_ok.1 hp
      cases hp

/-! ### the candidates -/

section candidates

variable {r : Redis} {targets : List String} {bound : Nat}

theorem mem_pendingCandidates {c : Candidate} :
    c ∈ pendingCandidates r targets bound ↔ c.targetId ∈ targets ∧
      (c.jobId, c.createdAtMs) ∈ (r.targetQueues c.targetId).take bound := by
  unfold pendingCandidates getQueuedJobIdsForTarget
  rw [List.mem_mergeSort, List.mem_flatMap]
  constructor
  · rintro ⟨t, ht, hc⟩
    obtain ⟨e, he, rfl⟩ := List.mem_map.1 hc
    exact ⟨ht, he⟩
  · rintro ⟨ht, he⟩
    exact ⟨c.targetId, ht, List.mem_map.2 ⟨_, he, rfl⟩⟩

theorem pendingCandidates_sorted :
    (pendingCandidates r targets bound).Pairwise fun a b => a.createdAtMs ≤ b.createdAtMs := by
  have h := @List.pairwise_mergeSort _ (fun a b : Candidate => a.createdAtMs ≤ b.createdAtMs)
    (fun a b c hab hbc => by simp only [decide_eq_true_eq] at *; omega)
    (fun a b => by simp only [Bool.or_eq_true, decide_eq_true_eq]; omega)
    (targets.flatMap fun t => getQueuedJobIdsForTarget r t bound)
  exact h.imp fun hab => by simpa using hab

/-- No two candidates are the same job in the same queue. -/
theorem pendingCandidates_distinct (htargets : targets.Nodup)
    (members : ∀ t, ((r.targetQueues t).map Prod.fst).Nodup) :
    (pendingCandidates r targets bound).Pairwise
      fun a b => a.jobId ≠ b.jobId ∨ a.targetId ≠ b.targetId := by
  refine (List.Perm.pairwise_iff (fun h => ?_) (List.mergeSort_perm _ _)).2 ?_
  · exact h.imp Ne.symm Ne.symm
  · refine List.pairwise_flatMap.2 ⟨fun t _ => ?_, ?_⟩
    · refine List.pairwise_map.2 ?_
      have h := List.pairwise_map.1 (members t)
      exact (h.sublist (List.take_sublist bound _)).imp fun hne => .inl hne
    · refine htargets.imp fun hne a ha b hb => ?_
      obtain ⟨_, -, rfl⟩ := List.mem_map.1 ha
      obtain ⟨_, -, rfl⟩ := List.mem_map.1 hb
      exact .inr hne

end candidates

section shown

variable {w : World} {targets : List String} {nowMs bound : Nat}

/-- A job that waits was created at the time its candidate has. -/
theorem QueuesOk.created (Q : QueuesOk w) (hclock : w.clock ≤ nowMs) {c : Candidate}
    (hc : c ∈ pendingCandidates w.redis targets bound) {job : JobRecordV2}
    (hw : Waits w.redis targets nowMs job) (hid : job.jobId = c.jobId)
    (ht : job.targetId = c.targetId) : job.createdAtMs = Cjson.num c.createdAtMs := by
  obtain ⟨score, hm, hcreated⟩ :=
    Q.listed.listed hw.stored hw.queued (lt_of_le_of_lt hclock hw.ahead)
  -- a sorted set holds a member once
  have hscore : score = c.createdAtMs := by
    rw [ht, hid] at hm
    have hentry := List.mem_of_mem_take (mem_pendingCandidates.1 hc).2
    exact congrArg Prod.snd (List.inj_on_of_nodup_map (Q.members c.targetId) hm hentry rfl)
  exact hscore ▸ hcreated

/-- A candidate that is shown is a job that waits. -/
theorem QueuesOk.shown (Q : QueuesOk w) {c : Candidate}
    (hc : c ∈ pendingCandidates w.redis targets bound) {x : PendingJobSummary}
    (h : shownOf w.redis nowMs c = some x) :
    ∃ job, Waits w.redis targets nowMs job ∧ x = pendingSummary job ∧ job.jobId = c.jobId ∧
      job.targetId = c.targetId := by
  cases hp : pendingJob c.targetId nowMs c.jobId w.redis with
  | error e =>
    rw [shownOf, hp] at h
    cases h
  | ok o =>
    rw [shownOf, hp] at h
    subst h
    obtain ⟨job, hj, hq, ha, htarget, rfl⟩ := pendingJob_shown hp
    have hkey := Q.listed.linkage.job_key hj
    exact ⟨job, ⟨hkey.symm ▸ hj, hq, ha, htarget ▸ (mem_pendingCandidates.1 hc).1⟩, rfl, hkey, htarget⟩

theorem QueuesOk.shown_ordered (Q : QueuesOk w) (hclock : w.clock ≤ nowMs) :
    ((pendingCandidates w.redis targets bound).filterMap (shownOf w.redis nowMs)).Pairwise
      fun x y => x.createdAt ≤ y.createdAt := by
  rw [List.pairwise_filterMap]
  refine pendingCandidates_sorted.imp_of_mem fun {a b} ha hb hab x hx y hy => ?_
  obtain ⟨job, hw, rfl, hid, ht⟩ := Q.shown ha hx
  obtain ⟨job', hw', rfl, hid', ht'⟩ := Q.shown hb hy
  show job.createdAtMs ≤ job'.createdAtMs
  rw [Q.created hclock ha hw hid ht, Q.created hclock hb hw' hid' ht']
  exact Cjson.num_mono hab

theorem QueuesOk.shown_distinct (Q : QueuesOk w) (htargets : targets.Nodup) :
    ((pendingCandidates w.redis targets bound).filterMap (shownOf w.redis nowMs)).Pairwise
      fun x y => x.jobId ≠ y.jobId := by
  rw [List.pairwise_filterMap]
  refine (pendingCandidates_distinct htargets Q.members).imp_of_mem
    fun {a b} ha hb hab x hx y hy heq => ?_
  obtain ⟨job, hw, rfl, hid, ht⟩ := Q.shown ha hx
  obtain ⟨job', hw', rfl, hid', ht'⟩ := Q.shown hb hy
  have hsame : job = job' := by
    have hstored := hw.stored
    rw [show job.jobId = job'.jobId from heq, hw'.stored] at hstored
    exact (Option.some.inj hstored).symm
  subst hsame
  rcases hab with hne | hne
  · exact hne (hid.symm.trans hid')
  · exact hne (ht.symm.trans ht')

/-- The candidate of a job in the head of its queue. -/
theorem InHead.candidate {r : Redis} {job : JobRecordV2} (h : InHead r bound job)
    (ht : job.targetId ∈ targets) :
    ∃ c ∈ pendingCandidates r targets bound, c.jobId = job.jobId ∧ c.targetId = job.targetId := by
  obtain ⟨e, he, hid⟩ := List.mem_map.1 h
  exact ⟨⟨job.jobId, e.2, job.targetId⟩, mem_pendingCandidates.2 ⟨ht, hid ▸ he⟩, rfl, rfl⟩

theorem QueuesOk.mem_shown (Q : QueuesOk w) {x : PendingJobSummary}
    (h : x ∈ (pendingCandidates w.redis targets bound).filterMap (shownOf w.redis nowMs)) :
    ∃ job, Waits w.redis targets nowMs job ∧ x = pendingSummary job ∧ InHead w.redis bound job := by
  obtain ⟨c, hc, hx⟩ := List.mem_filterMap.1 h
  obtain ⟨job, hw, hsum, hid, ht⟩ := Q.shown hc hx
  refine ⟨job, hw, hsum, ?_⟩
  unfold InHead
  rw [hid, ht]
  exact List.mem_map.2 ⟨_, (mem_pendingCandidates.1 hc).2, rfl⟩

/-- A job is in the results under its own summary only. -/
theorem pendingSummary_inj {r : Redis} {job job' : JobRecordV2}
    (h : Waits r targets nowMs job) (h' : Waits r targets nowMs job')
    (heq : pendingSummary job = pendingSummary job') : job = job' := by
  have hstored := h.stored
  rw [show job.jobId = job'.jobId from congrArg PendingJobSummary.jobId heq, h'.stored] at hstored
  exact (Option.some.inj hstored).symm

/-- A job in the head of its queue is shown, or stands behind `bound` that are. -/
theorem QueuesOk.head_shown (Q : QueuesOk w) (hclock : w.clock ≤ nowMs)
    (early : ¬FailsEarly w.redis nowMs bound (pendingCandidates w.redis targets bound))
    {job : JobRecordV2} (hw : Waits w.redis targets nowMs job) (hin : InHead w.redis bound job) :
    pendingSummary job ∈
        (pendingCandidates w.redis targets bound).filterMap (shownOf w.redis nowMs) ∨
      bound ≤ (((pendingCandidates w.redis targets bound).filterMap (shownOf w.redis nowMs)).filter
        fun x => x.createdAt ≤ job.createdAtMs).length := by
  obtain ⟨c, hc, hid, ht⟩ := hin.candidate hw.target
  by_cases hread : Unreadable w.redis nowMs c
  swap
  · exact .inl (List.mem_filterMap.2 ⟨c, hc, shownOf_waits hw hid ht hread⟩)
  right
  have hcreated := Q.created hclock hc hw hid.symm ht.symm
  obtain ⟨pre, post, hsplit⟩ := List.append_of_mem hc
  have hpre : bound ≤ (pre.filterMap (shownOf w.redis nowMs)).length := by
    by_contra hlt
    exact early ⟨pre, c, post, hsplit, hread, not_le.1 hlt⟩
  have hsorted := @pendingCandidates_sorted w.redis targets bound
  rw [hsplit, List.pairwise_append] at hsorted
  have hall : (pre.filterMap (shownOf w.redis nowMs)).filter
      (fun x => x.createdAt ≤ job.createdAtMs) = pre.filterMap (shownOf w.redis nowMs) := by
    refine List.filter_eq_self.2 fun x hx => ?_
    obtain ⟨a, ha, hx⟩ := List.mem_filterMap.1 hx
    have hac : a ∈ pendingCandidates w.redis targets bound :=
      hsplit ▸ List.mem_append_left _ ha
    obtain ⟨job', hw', rfl, hid', ht'⟩ := Q.shown hac hx
    have hle := Cjson.num_mono (hsorted.2.2 a ha c (by simp))
    rw [← hcreated, ← Q.created hclock hac hw' hid' ht'] at hle
    exact decide_eq_true hle
  rw [hsplit, List.filterMap_append, List.filter_append, hall, List.length_append]
  omega

theorem QueuesOk.outwaited_iff (Q : QueuesOk w) (hclock : w.clock ≤ nowMs) (htargets : targets.Nodup)
    (early : ¬FailsEarly w.redis nowMs bound (pendingCandidates w.redis targets bound))
    (job : JobRecordV2) : Outwaited w.redis targets nowMs bound job ↔
      bound ≤ (((pendingCandidates w.redis targets bound).filterMap (shownOf w.redis nowMs)).filter
        fun x => x.createdAt ≤ job.createdAtMs).length := by
  have hdistinct := @QueuesOk.shown_distinct w targets nowMs bound Q htargets
  have hmem {x : PendingJobSummary} := @QueuesOk.mem_shown w targets nowMs bound Q x
  have hhead {job : JobRecordV2} := @QueuesOk.head_shown w targets nowMs bound Q hclock early job
  generalize (pendingCandidates w.redis targets bound).filterMap (shownOf w.redis nowMs) = shown
    at hdistinct hmem hhead ⊢
  constructor
  · rintro ⟨older, rfl, hnodup, holder⟩
    by_cases hall : ∀ j ∈ older, pendingSummary j ∈ shown
    · have hsub : older.map pendingSummary ⊆
          shown.filter fun x => x.createdAt ≤ job.createdAtMs := by
        intro x hx
        obtain ⟨j, hj, rfl⟩ := List.mem_map.1 hx
        exact List.mem_filter.2 ⟨hall j hj, decide_eq_true (holder j hj).2.2⟩
      have hnodup' : (older.map pendingSummary).Nodup := by
        refine List.Nodup.of_map (·.jobId) ?_
        rw [List.map_map]
        exact hnodup
      have hle := (List.Nodup.subperm hnodup' hsub).length_le
      rwa [List.length_map] at hle
    · -- one that is not shown stands behind `bound` that are
      push Not at hall
      obtain ⟨j, hj, hnot⟩ := hall
      obtain ⟨hw, hin, hle⟩ := holder j hj
      refine ((hhead hw hin).resolve_left hnot).trans (List.Sublist.length_le ?_)
      refine List.monotone_filter_right _ fun x hx => ?_
      simp only [decide_eq_true_eq] at hx ⊢
      omega
  · intro hcount
    let kept := (shown.filter fun x => x.createdAt ≤ job.createdAtMs).take bound
    have hkept {x : PendingJobSummary} (hx : x ∈ kept) : ∃ j, w.redis.jobs x.jobId = some j ∧
        j.jobId = x.jobId ∧ Waits w.redis targets nowMs j ∧ InHead w.redis bound j ∧
        j.createdAtMs ≤ job.createdAtMs := by
      obtain ⟨hx, hle⟩ := List.mem_filter.1 (List.mem_of_mem_take hx)
      obtain ⟨j, hw, rfl, hin⟩ := hmem hx
      exact ⟨j, hw.stored, rfl, hw, hin, of_decide_eq_true hle⟩
    refine ⟨kept.map fun x => (w.redis.jobs x.jobId).getD job, ?_, ?_, fun j hj => ?_⟩
    · rw [List.length_map, List.length_take]
      exact min_eq_left hcount
    · have hids : (kept.map fun x => (w.redis.jobs x.jobId).getD job).map (·.jobId) =
          kept.map (·.jobId) := by
        rw [List.map_map]
        refine List.map_congr_left fun x hx => ?_
        obtain ⟨j, hstored, hid, -⟩ := hkept hx
        simp [hstored, hid]
      rw [hids]
      exact List.pairwise_map.2
        (hdistinct.sublist ((List.take_sublist _ _).trans List.filter_sublist))
    · obtain ⟨x, hx, rfl⟩ := List.mem_map.1 hj
      obtain ⟨j, hstored, -, hw, hin, hle⟩ := hkept hx
      rw [hstored]
      exact ⟨hw, hin, hle⟩

/-- **A poll that answers gives the oldest jobs that wait exactly when none is hidden.** -/
theorem oldestWaiting_iff (Q : QueuesOk w) (hclock : w.clock ≤ nowMs) (htargets : targets.Nodup)
    (early : ¬FailsEarly w.redis nowMs bound (pendingCandidates w.redis targets bound)) :
    OldestWaiting w.redis targets nowMs bound
      (((pendingCandidates w.redis targets bound).filterMap (shownOf w.redis nowMs)).take bound) ↔
      NoneHidden w.redis targets nowMs bound := by
  have hordered := @QueuesOk.shown_ordered w targets nowMs bound Q hclock
  have hdistinct := @QueuesOk.shown_distinct w targets nowMs bound Q htargets
  have hmem {x : PendingJobSummary} := @QueuesOk.mem_shown w targets nowMs bound Q x
  have hhead {job : JobRecordV2} := @QueuesOk.head_shown w targets nowMs bound Q hclock early job
  unfold NoneHidden
  simp only [Q.outwaited_iff hclock htargets early]
  generalize (pendingCandidates w.redis targets bound).filterMap (shownOf w.redis nowMs) = shown
    at hordered hdistinct hmem hhead ⊢
  constructor
  · intro O job hw
    by_cases hin : InHead w.redis bound job
    · exact .inl hin
    right
    have hout : pendingSummary job ∉ shown.take bound := by
      intro hx
      obtain ⟨job', hw', heq, hin'⟩ := hmem (List.mem_of_mem_take hx)
      exact hin (pendingSummary_inj hw hw' heq ▸ hin')
    have hlen : bound ≤ (shown.take bound).length := by
      by_contra hlt
      exact hout (O.full (not_le.1 hlt) job hw)
    have hall : (shown.take bound).filter (fun x => x.createdAt ≤ job.createdAtMs) =
        shown.take bound :=
      List.filter_eq_self.2 fun x hx => by simpa using O.oldest job hw hout x hx
    have hsub := ((List.take_sublist bound shown).filter
      fun x => decide (x.createdAt ≤ job.createdAtMs)).length_le
    rw [hall] at hsub
    exact hlen.trans hsub
  · intro N
    have hcases {job : JobRecordV2} (hw : Waits w.redis targets nowMs job) :
        pendingSummary job ∈ shown ∨
          bound ≤ (shown.filter fun x => x.createdAt ≤ job.createdAtMs).length := by
      rcases N job hw with hin | hcount
      · exact hhead hw hin
      · exact .inr hcount
    refine ⟨fun x hx => ?_, ?_, hordered.sublist (List.take_sublist _ _), List.length_take_le ..,
      fun hlt job hw => ?_, fun job hw hout x hx => ?_⟩
    · obtain ⟨job, hw, heq, -⟩ := hmem (List.mem_of_mem_take hx)
      exact ⟨job, hw, heq⟩
    · exact List.pairwise_map.2 (hdistinct.sublist (List.take_sublist _ _))
    · have hall : shown.take bound = shown := by
        rw [List.length_take] at hlt
        exact List.take_of_length_le (by omega)
      rw [hall] at hlt ⊢
      rcases hcases hw with hin | hcount
      · exact hin
      · exact absurd (hcount.trans (List.length_filter_le ..)) (not_le.2 hlt)
    · have hsplit : (shown.take bound ++ shown.drop bound).Pairwise
          fun x y => x.createdAt ≤ y.createdAt := by
        rw [List.take_append_drop]
        exact hordered
      rw [List.pairwise_append] at hsplit
      rcases hcases hw with hin | hcount
      · rw [← List.take_append_drop bound shown, List.mem_append] at hin
        exact hsplit.2.2 x hx _ (hin.resolve_left hout)
      · -- were `x` younger, those as old as the job would all be in the answer, and not be `x`
        by_contra hyoung
        have hdrop : (shown.drop bound).filter (fun x => x.createdAt ≤ job.createdAtMs) = [] :=
          List.filter_eq_nil_iff.2 fun y hy => by
            have hxy := hsplit.2.2 x hx y hy
            simp only [decide_eq_true_eq]
            omega
        have hlt : ((shown.take bound).filter fun x => x.createdAt ≤ job.createdAtMs).length <
            (shown.take bound).length :=
          List.length_filter_lt_length_iff_exists.2 ⟨x, hx, by simpa using hyoung⟩
        have hle := List.length_take_le bound shown
        rw [← List.take_append_drop bound shown, List.filter_append, hdrop, List.append_nil] at hcount
        omega

end shown

/-! ### the queues of a server's stores -/

/-- Every queue is a sorted set. -/
structure SortedQueues (r : Redis) : Prop where
  sorted (t : String) : (r.targetQueues t).Pairwise fun a b => a.2 ≤ b.2
  members (t : String) : ((r.targetQueues t).map Prod.fst).Nodup

theorem zinsert_sorted {z : Zset} (m : String) (score : Nat)
    (h : z.Pairwise fun a b => a.2 ≤ b.2) :
    (zinsert m score z).Pairwise fun a b => a.2 ≤ b.2 := by
  induction z with
  | nil => exact List.pairwise_singleton _ _
  | cons e z ih =>
    rw [List.pairwise_cons] at h
    unfold zinsert
    split_ifs with hlt
    · simp only [Bool.or_eq_true, decide_eq_true_eq, Bool.and_eq_true, beq_iff_eq] at hlt
      refine List.pairwise_cons.2 ⟨fun b hb => ?_, List.pairwise_cons.2 h⟩
      have he : score ≤ e.2 := by omega
      rcases List.mem_cons.1 hb with rfl | hb
      · exact he
      · exact he.trans (h.1 b hb)
    · simp only [Bool.or_eq_true, decide_eq_true_eq, not_or] at hlt
      refine List.pairwise_cons.2 ⟨fun b hb => ?_, ih h.2⟩
      rcases mem_zinsert.1 hb with rfl | hb
      · exact not_lt.1 hlt.1
      · exact h.1 b hb

theorem zinsert_members {z : Zset} {m : String} (score : Nat) (h : (z.map Prod.fst).Nodup)
    (hm : ∀ e ∈ z, e.1 ≠ m) : ((zinsert m score z).map Prod.fst).Nodup := by
  induction z with
  | nil => exact List.nodup_singleton _
  | cons e z ih =>
    rw [List.map_cons, List.nodup_cons] at h
    unfold zinsert
    split_ifs
    · rw [List.map_cons, List.map_cons, List.nodup_cons, List.nodup_cons]
      refine ⟨fun hin => ?_, h⟩
      rw [← List.map_cons] at hin
      obtain ⟨e', he', heq⟩ := List.mem_map.1 hin
      exact hm e' he' heq
    · rw [List.map_cons, List.nodup_cons]
      refine ⟨fun hin => ?_, ih h.2 fun e' he' => hm e' (by simp [he'])⟩
      obtain ⟨e', he', heq⟩ := List.mem_map.1 hin
      rcases mem_zinsert.1 he' with rfl | he'
      · exact hm e (by simp) heq.symm
      · exact h.1 (List.mem_map.2 ⟨e', he', heq⟩)

namespace SortedQueues

variable {r r' : Redis}

theorem empty : SortedQueues Redis.empty := ⟨fun _ => .nil, fun _ => .nil⟩

theorem update (S : SortedQueues r) {t : String} {z : Zset}
    (queues : r'.targetQueues = Function.update r.targetQueues t z)
    (sorted : z.Pairwise fun a b => a.2 ≤ b.2) (members : (z.map Prod.fst).Nodup) :
    SortedQueues r' := by
  refine ⟨fun t' => ?_, fun t' => ?_⟩
  · rw [queues, Function.update_apply]
    split_ifs
    · exact sorted
    · exact S.sorted t'
  · rw [queues, Function.update_apply]
    split_ifs
    · exact members
    · exact S.members t'

theorem step (S : SortedQueues r) {now : Nat} (move : QueueMove now r r') : SortedQueues r' := by
  have zrem (t m : String) : (zrem (r.targetQueues t) m).Pairwise (fun a b => a.2 ≤ b.2) ∧
      ((Jobs.zrem (r.targetQueues t) m).map Prod.fst).Nodup :=
    ⟨(S.sorted t).sublist List.filter_sublist,
      (S.members t).sublist (List.filter_sublist.map Prod.fst)⟩
  cases move with
  | frame queues => exact ⟨fun t => queues ▸ S.sorted t, fun t => queues ▸ S.members t⟩
  | added job entry fresh jobs queues =>
    obtain ⟨hsorted, hmembers⟩ := zrem job.targetId job.jobId
    exact S.update queues (zinsert_sorted _ _ hsorted)
      (zinsert_members _ hmembers fun e he => (mem_zrem.1 he).2)
  | removed t id queues =>
    obtain ⟨hsorted, hmembers⟩ := zrem t id
    exact S.update queues hsorted hmembers

end SortedQueues

theorem queuesOk_reachable {s : Server.State World QueueAsk QueueAsk.Answer _}
    (hs : (queues.under amongScripts).Reachable s) : QueuesOk s.store := by
  have served : queues.Served amongScripts (listed.also fun w => SortedQueues w.redis) := by
    refine queues_served.also (fun w hw => ?_) (stable_of_exec fun w now c hI hle hp => ?_)
    · rw [show w.redis = Redis.empty from hw]
      exact .empty
    · have dead (t id : String) (hc : c = .pruneTargetQueue t id) : Dead w.redis now t id :=
        (hp t id hc).later hle
      exact ⟨hI.1.step hle dead, hI.2.step (exec_queue hI.1.linkage now dead)⟩
  have I := (Server.reachable_safe served (Q := fun _ _ => True) (fun _ _ _ _ _ _ _ => trivial)
    (fun q w _ => by
      cases q with
      | getPendingJobs targets limit => exact (safe_getPendingJobs targets limit).also
      | verifyTargetQuiescence t token batches =>
        exact (safe_verifyTargetQuiescence t token batches).also) hs).1
  obtain ⟨hlisted, hsorted⟩ := I
  exact ⟨hlisted, hsorted.sorted, hsorted.members⟩

/-- Where the poll looks at whole queues, nothing is hidden. -/
theorem noneHidden_of_short {w : World} {targets : List String} {nowMs bound : Nat}
    (Q : QueuesOk w) (hclock : w.clock ≤ nowMs)
    (short : ∀ t ∈ targets, (w.redis.targetQueues t).length ≤ bound) :
    NoneHidden w.redis targets nowMs bound := by
  intro job hw
  obtain ⟨score, hm, -⟩ := Q.listed.listed hw.stored hw.queued (lt_of_le_of_lt hclock hw.ahead)
  left
  unfold InHead
  rw [List.take_of_length_le (short _ hw.target)]
  exact List.mem_map.2 ⟨_, hm, rfl⟩

/-- **A poll gives the oldest jobs that wait exactly when none is hidden**: in every store of the
server, at any later time, and for every device and limit, it answers, and with the oldest of the
jobs that wait for the device, if and only if it meets no record it cannot show before it has
enough, and no job that waits stands behind the head of its queue without as many as old as it in
the heads. -/
theorem pending_poll_complete_iff {s : Server.State World QueueAsk QueueAsk.Answer _}
    (hs : (queues.under amongScripts).Reachable s) (control : Control) (deviceId : String)
    (limit : Int) (nowMs : Nat) (hclock : s.store.clock ≤ nowMs)
    (htargets : (control.eligibleTargets deviceId).Nodup) :
    (∃ results, getPendingJobs control deviceId limit nowMs (fun _ => s.store.redis) = .ok results ∧
      OldestWaiting s.store.redis (control.eligibleTargets deviceId) nowMs (boundedLimit limit)
        results) ↔
      ¬FailsEarly s.store.redis nowMs (boundedLimit limit)
        (pendingCandidates s.store.redis (control.eligibleTargets deviceId) (boundedLimit limit)) ∧
      NoneHidden s.store.redis (control.eligibleTargets deviceId) nowMs (boundedLimit limit) := by
  have Q := queuesOk_reachable hs
  rw [getPendingJobs_at]
  rcases @pendingLoop_at s.store.redis nowMs (boundedLimit limit)
      (pendingCandidates s.store.redis (control.eligibleTargets deviceId) (boundedLimit limit))
      (control.eligibleTargets deviceId).length [] with ⟨⟨e, he⟩, early⟩ | ⟨hok, early⟩
  · rw [List.length_nil, Nat.sub_zero] at early
    constructor
    · rintro ⟨results, hresults, -⟩
      rw [he] at hresults
      cases hresults
    · exact fun h => absurd early h.1
  · rw [List.length_nil, Nat.sub_zero] at early
    rw [List.length_nil, Nat.sub_zero, List.nil_append] at hok
    have hiff := oldestWaiting_iff Q hclock htargets early
    constructor
    · rintro ⟨results, hresults, O⟩
      rw [hok] at hresults
      obtain rfl := Except.ok.inj hresults
      exact ⟨early, hiff.1 O⟩
    · exact fun h => ⟨_, hok, hiff.2 h.2⟩

/-! ### an expired job before one that waits -/

/-- The store holds one queued job, in the only queue, and the poll can show it. -/
def oneQueued (w : World) : Bool :=
  w.clock ≤ 2000 && w.redis.targetQueues sampleJob.targetId == [(sampleJob.jobId, 1000)] &&
    (pendingJob sampleJob.targetId 2000 sampleJob.jobId w.redis).toBool

set_option maxRecDepth 10000 in
theorem pending_poll_complete_one : ∃ s : Server.State World QueueAsk QueueAsk.Answer _,
    (queues.under amongScripts).Reachable s ∧ ∃ results,
      getPendingJobs sampleControl sampleClaim.deviceId 20 2000 (fun _ => s.store.redis) =
        .ok results ∧
      OldestWaiting s.store.redis [sampleJob.targetId] 2000 20 results := by
  obtain ⟨s, hs, hc⟩ := queues.reachable_runUnder (P := amongScripts) (s := ⟨Redis.empty, 0⟩) rfl
    [.surround (1000, .create sampleJob sampleJob.requestId)] (fun s => oneQueued s.store)
    (by decide +kernel)
  simp only [oneQueued, Bool.and_eq_true, decide_eq_true_eq, beq_iff_eq] at hc
  obtain ⟨⟨hclock, hqueue⟩, hread⟩ := hc
  refine ⟨s, hs, (pending_poll_complete_iff hs sampleControl sampleClaim.deviceId 20 2000 hclock
    (List.nodup_singleton sampleJob.targetId)).2 ⟨?_, ?_⟩⟩
  · rintro ⟨pre, c, post, hsplit, ⟨e, he⟩, -⟩
    have hc : c ∈ pendingCandidates s.store.redis [sampleJob.targetId] 20 := by
      rw [show pendingCandidates s.store.redis [sampleJob.targetId] 20 = _ from hsplit]
      simp
    obtain ⟨ht, hentry⟩ := mem_pendingCandidates.1 hc
    rw [List.mem_singleton.1 ht, hqueue] at hentry
    have hid : c.jobId = sampleJob.jobId := by
      have heq := List.mem_singleton.1 (List.mem_of_mem_take hentry)
      exact congrArg Prod.fst heq
    rw [hid, List.mem_singleton.1 ht] at he
    rw [he] at hread
    cases hread
  · refine noneHidden_of_short (queuesOk_reachable hs) hclock fun t ht => ?_
    rw [show t = sampleJob.targetId from List.mem_singleton.1 ht, hqueue]
    decide

/-- A job created when `sampleJob` has expired. -/
def nextJob : JobRecordV2 :=
  { sampleJob with
    jobId := "job-00000000-0000-4000-8000-000000000006"
    requestId := "00000000-0000-4000-8000-00000000000b"
    createdAtMs := 604802000
    claimDeadlineMs := 1209602000 }

/-- `nextJob` waits, behind a job that the poll drops. -/
def nextBehind (w : World) : Bool :=
  w.clock ≤ 604803000 &&
    w.redis.targetQueues sampleJob.targetId ==
      [(sampleJob.jobId, 1000), (nextJob.jobId, 604802000)] &&
    (pendingJob sampleJob.targetId 604803000 sampleJob.jobId w.redis).toOption == some none &&
    (w.redis.jobs nextJob.jobId).any fun job =>
      job.jobId == nextJob.jobId && job.status == .queued && 604803000 < job.claimDeadlineMs &&
        job.targetId == sampleJob.targetId

set_option maxRecDepth 10000 in
/-- An expired job at the head of a queue hides the one behind it from a poll for one job. -/
theorem expired_hides : ¬∀ s : Server.State World QueueAsk QueueAsk.Answer _,
    (queues.under amongScripts).Reachable s → ∀ control deviceId limit nowMs,
      s.store.clock ≤ nowMs → (Control.eligibleTargets control deviceId).Nodup →
      ∃ results, getPendingJobs control deviceId limit nowMs (fun _ => s.store.redis) = .ok results ∧
        OldestWaiting s.store.redis (control.eligibleTargets deviceId) nowMs (boundedLimit limit)
          results := by
  intro h
  obtain ⟨s, hs, hc⟩ := queues.reachable_runUnder (P := amongScripts) (s := ⟨Redis.empty, 0⟩) rfl
    [.surround (1000, .create sampleJob sampleJob.requestId),
     .surround (604802000, .create nextJob nextJob.requestId)]
    (fun s => nextBehind s.store) (by decide +kernel)
  simp only [nextBehind, Bool.and_eq_true, decide_eq_true_eq, beq_iff_eq, Option.any_eq_true] at hc
  obtain ⟨⟨⟨hclock, hqueue⟩, hdropped⟩, job, hj, ⟨⟨⟨hid, hq⟩, hd⟩, ht⟩⟩ := hc
  obtain ⟨results, hresults, O⟩ := h s hs sampleControl sampleClaim.deviceId 1 604803000 hclock
    (List.nodup_singleton sampleJob.targetId)
  -- the poll takes one row of the queue, and drops it
  have hcandidates : pendingCandidates s.store.redis [sampleJob.targetId] 1 =
      [⟨sampleJob.jobId, 1000, sampleJob.targetId⟩] := by
    simp [pendingCandidates, getQueuedJobIdsForTarget, hqueue]
  have hnone : pendingJob sampleJob.targetId 604803000 sampleJob.jobId s.store.redis = .ok none := by
    cases hp : pendingJob sampleJob.targetId 604803000 sampleJob.jobId s.store.redis with
    | error e =>
      rw [hp] at hdropped
      cases hdropped
    | ok o =>
      rw [hp] at hdropped
      rw [Option.some.inj hdropped]
  have hempty : getPendingJobs sampleControl sampleClaim.deviceId 1 604803000
      (fun _ => s.store.redis) = .ok [] := by
    rw [getPendingJobs_at]
    show pendingLoop _ 1 _ (pendingCandidates s.store.redis [sampleJob.targetId] 1) _ [] = _
    rw [hcandidates]
    simp [pendingLoop, hnone, bind, Except.bind, pure, Except.pure]
  rw [hempty] at hresults
  obtain rfl := Except.ok.inj hresults
  have hw : Waits s.store.redis (sampleControl.eligibleTargets sampleClaim.deviceId) 604803000 job :=
    ⟨hid ▸ hj, hq, hd, List.mem_singleton.2 ht⟩
  have hin := O.full Nat.one_pos job hw
  cases hin

end Ceo.Jobs
