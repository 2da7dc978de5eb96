import Ceo.Jobs.Pages

/-!
# The execution status filter

`listJobsForHost` filters on the status in the report of a job's attempt, and
shows the status of `jobExecutionStatusView`, which falls back to the job's
cancel record. The two differ on a job that was cancelled before its claim: it
has no attempt and no report, is shown as `CANCELLED`, and no filter finds it.
-/

namespace Ceo.Jobs

open Ceo.Lib

/-! ### one entry under the filter -/

/-- The status the filter compares. -/
def reportedStatus (attempt : Option AttemptRecordV1) : Option ExecutionStatus :=
  (attempt.bind (·.report)).map (·.executionStatus)

/-- The query with this filter on the execution status, all else the same. -/
def ListJobsQuery.withStatus (query : ListJobsQuery) (status : Option ExecutionStatus) :
    ListJobsQuery :=
  { query with executionStatus := status }

theorem listFilter_withStatus (query : ListJobsQuery) (attempt : Option AttemptRecordV1)
    (state : HostJobState) (s : ExecutionStatus) :
    listFilter (query.withStatus (some s)) attempt state =
      (listFilter (query.withStatus none) attempt state && reportedStatus attempt == some s) := by
  simp [listFilter, ListJobsQuery.withStatus, reportedStatus, optAll]

theorem hostSummary_status {control : Control} {job : JobRecordV2}
    {attempt : Option AttemptRecordV1} {state : HostJobState} {summary : HostJobSummary}
    (h : hostSummary control job attempt state = .ok summary) :
    summary.executionStatus = jobExecutionStatusView job attempt := by
  obtain ⟨_, -, h⟩ := bind_eq_ok.1 h
  obtain ⟨_, -, h⟩ := bind_eq_ok.1 h
  obtain ⟨_, -, h⟩ := bind_eq_ok.1 h
  cases h
  rfl

section row

variable {control : Control} {query : ListJobsQuery} {nowMs : Nat} {row : JobStreamEntryV2}
  {atJob atAttempt : Redis} {summary : HostJobSummary}

/-- An entry the other filters show, under each filter on the status. -/
theorem listedRow_withStatus
    (h : listedRow control (query.withStatus none) nowMs row atJob atAttempt = .ok (some summary)) :
    ∃ job, atJob.jobs row.jobId = some job ∧
      summary.executionStatus = jobExecutionStatusView job (latestAttempt atAttempt job) ∧
      ∀ s, listedRow control (query.withStatus (some s)) nowMs row atJob atAttempt =
        .ok (if reportedStatus (latestAttempt atAttempt job) = some s then some summary
          else none) := by
  obtain ⟨job, hjob, h⟩ := bind_eq_ok.1 h
  by_cases htar : targetFilter (query.withStatus none) job = true
  swap
  · rw [if_pos (by simpa using htar)] at h
    cases h
  rw [if_neg (by simpa using htar)] at h
  obtain ⟨att, hatt, h⟩ := bind_eq_ok.1 h
  obtain ⟨state, hstate, h⟩ := bind_eq_ok.1 h
  by_cases hf : listFilter (query.withStatus none) att state = true
  swap
  · rw [if_neg hf] at h
    cases h
  rw [if_pos hf] at h
  obtain ⟨found, hsummary, h⟩ := bind_eq_ok.1 h
  cases h
  refine ⟨job, (listedJob_stored hjob).1, ?_, fun s => ?_⟩
  · rw [hostAttempt_stored hatt]
    exact hostSummary_status hsummary
  rw [hostAttempt_stored hatt]
  have htar' : targetFilter (query.withStatus (some s)) job = true := htar
  unfold listedRow
  simp only [hjob, bind, Except.bind, htar', Bool.not_true, Bool.false_eq_true, if_false, hatt,
    hstate, listFilter_withStatus, hf, Bool.true_and, beq_iff_eq, hsummary, pure, Except.pure]
  split_ifs <;> rfl

/-- An entry a filter on the status shows has that status in its report. -/
theorem listedRow_reported {s : ExecutionStatus}
    (h : listedRow control (query.withStatus (some s)) nowMs row atJob atAttempt =
      .ok (some summary)) :
    ∃ job, atJob.jobs row.jobId = some job ∧
      reportedStatus (latestAttempt atAttempt job) = some s := by
  obtain ⟨job, hjob, h⟩ := bind_eq_ok.1 h
  by_cases htar : targetFilter (query.withStatus (some s)) job = true
  swap
  · rw [if_pos (by simpa using htar)] at h
    cases h
  rw [if_neg (by simpa using htar)] at h
  obtain ⟨att, hatt, h⟩ := bind_eq_ok.1 h
  obtain ⟨state, hstate, h⟩ := bind_eq_ok.1 h
  rw [listFilter_withStatus] at h
  by_cases hf : (listFilter (query.withStatus none) att state && reportedStatus att == some s) = true
  swap
  · rw [if_neg hf] at h
    cases h
  rw [Bool.and_eq_true, beq_iff_eq] at hf
  refine ⟨job, (listedJob_stored hjob).1, ?_⟩
  rw [hostAttempt_stored hatt]
  exact hf.2

end row

/-! ### the page that starts at an entry -/

/-- The first cursor past an entry. -/
def StreamId.above (i : StreamId) : StreamId := ⟨i.ms, i.seq + 1⟩

theorem remaining_above {r : Redis} (asc : Ascending r.stream) {row : StreamRow}
    (hrow : row ∈ r.stream) : ∃ rest, remaining r (some row.1.above) = row :: rest := by
  obtain ⟨pre, post, hsplit⟩ := List.append_of_mem hrow
  have asc' := asc
  rw [hsplit, Ascending, List.pairwise_append, List.pairwise_cons] at asc'
  have hpost : post.reverse.filter (fun x => belowCursor (some row.1.above) x.1) = [] := by
    refine List.filter_eq_nil_iff.2 fun x hx => ?_
    have hbefore := asc'.2.1.1 x (List.mem_reverse.1 hx)
    rw [StreamId.before_iff] at hbefore
    show ¬x.1.before row.1.above = true
    rw [StreamId.before_iff]
    dsimp only [StreamId.above]
    omega
  have hself : belowCursor (some row.1.above) row.1 = true :=
    StreamId.before_iff.2 (.inr ⟨rfl, Nat.lt_succ_self _⟩)
  refine ⟨pre.reverse.filter fun x => belowCursor (some row.1.above) x.1, ?_⟩
  unfold remaining
  rw [hsplit, List.reverse_append, List.filter_append, List.reverse_cons, List.filter_append, hpost,
    List.nil_append, List.filter_singleton, hself]
  rfl

section page

variable {control : Control} {scope : Scope} {query : ListJobsQuery} {nowMs : Nat} {r : Redis}

/-- A list call shows this summary: at some cursor, with some limit. -/
def Lists (control : Control) (scope : Scope) (query : ListJobsQuery) (nowMs : Nat) (r : Redis)
    (summary : HostJobSummary) : Prop :=
  ∃ cursor limit found, listJobsForHost control scope { query with cursor := cursor, limit := limit }
    nowMs (fun _ => r) = .ok found ∧ summary ∈ found.1

/-- The entry that fills the page ends the scan. -/
theorem scanRow_full {limit : Nat} {stores : Nat → Redis} {row : StreamRow} {s : Scan}
    {summary : HostJobSummary} (own : OwnRow scope row.2)
    (h : listedRow control query nowMs row.2 (stores s.moment) (stores (s.moment + 1)) =
      .ok (some summary)) (full : limit ≤ (s.jobs ++ [summary]).length) :
    ∃ t, scanRow control scope query nowMs limit stores row s = .ok (t, true) ∧
      t.jobs = s.jobs ++ [summary] ∧ t.nextCursor = some row.1 := by
  refine ⟨{ s with
    moment := s.moment + 2, totalScanned := s.totalScanned + 1, cursor := some row.1
    jobs := s.jobs ++ [summary], nextCursor := some row.1 }, ?_, rfl, rfl⟩
  have tenant := own.tenant
  rw [own.workspace] at tenant
  unfold scanRow
  simp only [tenant, own.workspace, own.valid, h, bind, Except.bind, Bool.not_true,
    Bool.false_eq_true, if_false, ne_eq, not_true_eq_false]
  rw [if_pos full]
  rfl

/-- The call of one job at the cursor just past an entry answers with that entry. -/
theorem lists_of_row (asc : Ascending r.stream)
    (access : assertHostWorkspaceAccess control scope = .ok ())
    (target : listTargetAllowed control scope query.targetId = .ok ()) {row : StreamRow}
    (hrow : row ∈ r.stream) (own : OwnRow scope row.2) {summary : HostJobSummary}
    (h : listedRow control query nowMs row.2 r r = .ok (some summary)) :
    Lists control scope query nowMs r summary := by
  obtain ⟨rest, hrest⟩ := remaining_above asc hrow
  have hread : readJobStreamReverse r (some row.1.above)
      (min jobListScanBatch (jobListMaxScanned - 0)) = row :: rest.take 63 := by
    rw [readJobStreamReverse_eq, hrest]
    rfl
  have hlisted : listedRow control { query with cursor := some row.1.above, limit := some 1 } nowMs
      row.2 r r = .ok (some summary) := h
  obtain ⟨t, hscan, hjobs, hnext⟩ := @scanRow_full control scope
    { query with cursor := some row.1.above, limit := some 1 } nowMs 1 (fun _ => r) row
    { moment := 1, cursor := some row.1.above, jobs := [], totalScanned := 0, nextCursor := none }
    summary own hlisted le_rfl
  refine ⟨some row.1.above, some 1, ([summary], some row.1), ?_, by simp⟩
  have hbatch : scanBatches control scope
      { query with cursor := some row.1.above, limit := some 1 } nowMs 1 (fun _ => r) (255 + 1)
      { moment := 0, cursor := some row.1.above, jobs := [], totalScanned := 0,
        nextCursor := none } = .ok t := by
    unfold scanBatches
    rw [if_pos ⟨Nat.one_pos, (by decide : 0 < jobListMaxScanned)⟩]
    dsimp only
    rw [hread, if_neg (List.cons_ne_nil _ _)]
    unfold scanRows
    simp only [hscan, bind, Except.bind, if_true, pure, Except.pure]
    have full : 1 ≤ t.jobs.length := by rw [hjobs]; exact le_rfl
    rw [if_neg fun hc => absurd hc.2.1 (not_lt.2 full)]
    exact (scanBatches_stopped 255 (.inl full)).1
  unfold listJobsForHost
  simp only [access, target, bind, Except.bind]
  have hlimit : (min (max 1 ((some (1 : Int)).getD jobListDefaultLimit)) jobListMaxLimit).toNat = 1 := by
    decide
  rw [hlimit]
  rw [show jobListMaxScanned = 255 + 1 from rfl, hbatch]
  simp only [pure, Except.pure, hjobs, hnext]
  rfl

/-- A page comes only to a caller with access, whose filter on the target is allowed. -/
theorem Lists.allowed {summary : HostJobSummary} (h : Lists control scope query nowMs r summary) :
    assertHostWorkspaceAccess control scope = .ok () ∧
      listTargetAllowed control scope query.targetId = .ok () := by
  obtain ⟨cursor, limit, found, h, -⟩ := h
  obtain ⟨_, haccess, h⟩ := bind_eq_ok.1 h
  obtain ⟨_, htarget, -⟩ := bind_eq_ok.1 h
  exact ⟨haccess, htarget⟩

theorem Lists.row {summary : HostJobSummary} (h : Lists control scope query nowMs r summary) :
    ∃ row ∈ r.stream, OwnRow scope row.2 ∧
      listedRow control query nowMs row.2 r r = .ok (some summary) := by
  obtain ⟨cursor, limit, found, h, hm⟩ := h
  obtain ⟨k, row, hrow, hf⟩ := listJobsForHost_finds h hm
  cases hf with
  | own k' hown hl => exact ⟨row, hrow, hown, hl⟩

end page

/-! ### where filter and view agree -/

/-- The job was cancelled and has no report: it never had an attempt that ended. -/
def CancelledUnreported (r : Redis) (jobId : String) : Prop :=
  ∃ job, r.jobs jobId = some job ∧ job.cancel.isSome = true ∧
    reportedStatus (latestAttempt r job) = none

theorem view_eq (job : JobRecordV2) (attempt : Option AttemptRecordV1) :
    jobExecutionStatusView job attempt =
      (reportedStatus attempt).or (if job.cancel.isSome then some .cancelled else none) := by
  unfold jobExecutionStatusView reportedStatus
  cases attempt.bind (·.report) <;> rfl

/-- The filter on the status and the status shown tell the same of this job. -/
structure FilterAgrees (control : Control) (scope : Scope) (query : ListJobsQuery) (nowMs : Nat)
    (r : Redis) (s : ExecutionStatus) (summary : HostJobSummary) : Prop where
  listed : (∃ found, Lists control scope (query.withStatus (some s)) nowMs r found ∧
    found.jobId = summary.jobId) ↔ summary.executionStatus = some s
  detail : ∀ includeTask detail,
    getJobForHost control scope summary.jobId includeTask nowMs r r = .ok detail →
    ((∃ found, Lists control scope (query.withStatus (some s)) nowMs r found ∧
      found.jobId = summary.jobId) ↔ detail.executionStatus = some s)

theorem getJobForHost_status {control : Control} {scope : Scope} {jobId : String}
    {includeTask : Bool} {nowMs : Nat} {r : Redis} {detail : HostJobDetail}
    (h : getJobForHost control scope jobId includeTask nowMs r r = .ok detail) :
    ∃ job, r.jobs jobId = some job ∧
      detail.executionStatus = jobExecutionStatusView job (latestAttempt r job) := by
  rw [getJobForHost_eq] at h
  obtain ⟨_, -, h⟩ := bind_eq_ok.1 h
  split_ifs at h with hformat
  obtain ⟨o, hget, h⟩ := bind_eq_ok.1 h
  cases o with
  | none => cases h
  | some job =>
    dsimp only at h
    split_ifs at h with hws
    obtain ⟨att, hatt, h⟩ := bind_eq_ok.1 h
    obtain ⟨state, -, h⟩ := bind_eq_ok.1 h
    obtain ⟨summary, hsummary, h⟩ := bind_eq_ok.1 h
    obtain ⟨_, -, h⟩ := bind_eq_ok.1 h
    obtain ⟨_, -, h⟩ := bind_eq_ok.1 h
    obtain ⟨_, -, h⟩ := bind_eq_ok.1 h
    cases h
    refine ⟨job, getJob_stored hget, ?_⟩
    rw [hostAttempt_stored hatt]
    exact hostSummary_status hsummary

/-- **The filter agrees with the status shown except for a job cancelled without a report**: for
each job a list shows without a filter on the status, whatever the other filters are, the filter
on `s` shows it exactly when `s` is the status shown in the list and in the job's detail, unless
`s` is `CANCELLED` and the job was cancelled without a report. -/
theorem status_filter_agrees_iff {r : Redis} (hr : scripts.Reachable r) (control : Control)
    (scope : Scope) (query : ListJobsQuery) (nowMs : Nat) (s : ExecutionStatus)
    {summary : HostJobSummary}
    (shown : Lists control scope (query.withStatus none) nowMs r summary) :
    FilterAgrees control scope query nowMs r s summary ↔
      ¬(s = .cancelled ∧ CancelledUnreported r summary.jobId) := by
  obtain ⟨haccess, htarget⟩ := shown.allowed
  obtain ⟨row, hrow, own, hl⟩ := shown.row
  have hid := listedRow_jobId hl
  obtain ⟨job, hjob, hview, hwith⟩ := listedRow_withStatus hl
  have asc := (OneEach.reachable hr).ascending
  -- the filter looks at the report, and at nothing else
  have hfilter : (∃ found, Lists control scope (query.withStatus (some s)) nowMs r found ∧
      found.jobId = summary.jobId) ↔ reportedStatus (latestAttempt r job) = some s := by
    constructor
    · rintro ⟨found, hlists, hfound⟩
      obtain ⟨row', -, -, hl'⟩ := hlists.row
      obtain ⟨job', hjob', hs⟩ := listedRow_reported hl'
      rw [← listedRow_jobId hl', hfound, hid, hjob] at hjob'
      obtain rfl := Option.some.inj hjob'
      exact hs
    · intro hs
      have hshows := hwith s
      rw [if_pos hs] at hshows
      exact ⟨summary, @lists_of_row control scope (query.withStatus (some s)) nowMs r asc haccess htarget
        row hrow own summary hshows, rfl⟩
  have hagree : (reportedStatus (latestAttempt r job) = some s ↔ summary.executionStatus = some s) ↔
      ¬(s = .cancelled ∧ CancelledUnreported r summary.jobId) := by
    have hcancel : CancelledUnreported r summary.jobId ↔
        job.cancel.isSome = true ∧ reportedStatus (latestAttempt r job) = none := by
      unfold CancelledUnreported
      rw [hid, hjob]
      simp
    rw [hcancel, hview, view_eq]
    cases reportedStatus (latestAttempt r job) with
    | some t => simp
    | none => cases job.cancel.isSome <;> simp [eq_comm]
  refine ⟨fun h => hagree.1 (hfilter.symm.trans h.listed), fun h => ?_⟩
  have hlisted := hfilter.trans (hagree.2 h)
  refine ⟨hlisted, fun includeTask detail hdetail => ?_⟩
  obtain ⟨job', hjob', hstatus⟩ := getJobForHost_status hdetail
  rw [hid, hjob] at hjob'
  obtain rfl := Option.some.inj hjob'
  rw [hlisted, hview, hstatus]

/-! ### a job cancelled before its claim -/

def cancelQueued : CancelParams := { sampleCancel with expectedAttemptId := none }

def cancelledQueuedCalls : List (Nat × Call) := twoJobCalls ++ [(2000, .cancel cancelQueued)]

def anyStatus : ListJobsQuery := ⟨none, none, none, none, none⟩

/-- The statuses of the jobs on the first page. -/
def firstPage (query : ListJobsQuery) (r : Redis) : Option (List (String × Option ExecutionStatus)) :=
  (listJobsForHost sampleControl sampleScope query 3000 fun _ => r).toOption.map fun found =>
    found.1.map fun summary => (summary.jobId, summary.executionStatus)

theorem lists_of_firstPage {r : Redis} {id : String} {status : Option ExecutionStatus}
    (h : firstPage anyStatus r = some [(id, status)]) :
    ∃ summary, Lists sampleControl sampleScope (anyStatus.withStatus none) 3000 r summary ∧
      summary.jobId = id ∧ summary.executionStatus = status := by
  unfold firstPage at h
  cases hlist : listJobsForHost sampleControl sampleScope anyStatus 3000 fun _ => r with
  | error e =>
    rw [hlist] at h
    cases h
  | ok found =>
    rw [hlist] at h
    have hfound := Option.some.inj h
    obtain ⟨summary, hone, heq⟩ := List.map_eq_singleton_iff.1 hfound
    rw [Prod.mk.injEq] at heq
    exact ⟨summary, ⟨none, none, found, hlist, by simp [hone]⟩, heq⟩

set_option maxRecDepth 10000 in
theorem status_filter_agrees_claimed :
    ∃ summary, summary.jobId = sampleJob.jobId ∧
      FilterAgrees sampleControl sampleScope anyStatus 3000 (replay claimedCalls) .completed
        summary := by
  obtain ⟨summary, shown, hid, -⟩ := @lists_of_firstPage (replay claimedCalls) sampleJob.jobId none
    (by decide +kernel)
  exact ⟨summary, hid, (status_filter_agrees_iff (replay_reachable _) sampleControl sampleScope
    anyStatus 3000 .completed shown).2 fun h => by cases h.1⟩

set_option maxRecDepth 10000 in
/-- A job cancelled while it is queued is listed as `CANCELLED`, and not found under `CANCELLED`. -/
theorem cancelled_not_found : ¬∀ r, scripts.Reachable r → ∀ control scope query nowMs s summary,
    Lists control scope (ListJobsQuery.withStatus query none) nowMs r summary →
    FilterAgrees control scope query nowMs r s summary := by
  intro h
  obtain ⟨summary, shown, hid, hstatus⟩ := @lists_of_firstPage (replay cancelledQueuedCalls)
    sampleJob.jobId (some .cancelled) (by decide +kernel)
  have agrees := h _ (replay_reachable _) _ _ anyStatus _ .cancelled _ shown
  obtain ⟨found, hlists, hfound⟩ := agrees.listed.2 hstatus
  obtain ⟨row, -, -, hl⟩ := hlists.row
  obtain ⟨job, hjob, hs⟩ := listedRow_reported hl
  rw [← listedRow_jobId hl, hfound, hid] at hjob
  have hnone : ((replay cancelledQueuedCalls).jobs sampleJob.jobId).map (fun job =>
      reportedStatus (latestAttempt (replay cancelledQueuedCalls) job)) = some none := by
    decide +kernel
  rw [hjob, Option.map_some, hs] at hnone
  cases hnone

end Ceo.Jobs
