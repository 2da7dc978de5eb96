import Ceo.Jobs.Closure
import Ceo.Jobs.Listing

/-!
# What a device may list

`listJobsForDevice` of `JobCoordinatorV2` (`jobs/v2-service.ts`). It works out
which workspaces the device's targets are in and hands the query to the list
of the whole workspace; only a target filter keeps the page to one target, and
no filter keeps the rows it scans to the device's own.
-/

namespace Ceo.Jobs

open Ceo.Lib Function

/-! ### listJobsForDevice -/

/-- The first time value with a year of more than four digits. -/
def year10000Ms : Nat := 253402300800000

/-- `a.created_at < b.created_at`: the texts of `toISOString` as strings, where a year past 9999
starts with a plus sign. -/
def isoBefore (a b : Nat) : Bool :=
  if a < year10000Ms then b < year10000Ms && a < b else b < year10000Ms || a < b

section list

variable (control : Control) (deviceId userId : String) (query : ListJobsQuery)

/-- The target filter; an empty id counts as none. -/
def filterTarget : Option String := query.targetId.filter (· ≠ "")

/-- The workspaces `listJobsForDevice` lists, in its order. -/
def deviceWorkspaces : List String :=
  let deviceTargetIds := control.boundTargets deviceId
  match filterTarget query with
  | none =>
    (deviceTargetIds.filterMap fun t =>
      (control.getExecutionTarget t).map (·.workspaceId)).eraseDups
  | some targetId =>
    if deviceTargetIds.contains targetId then
      (control.getExecutionTarget targetId).toList.map (·.workspaceId)
    else []

def mergeWorkspaces (limit : Int) (nowMs : Nat) (stores : Nat → Nat → Redis) :
    List String → Nat → Except V2Error (List HostJobSummary)
  | [], _ => return []
  | workspaceId :: rest, i => do
    let res ← listJobsForHost control ⟨userId, workspaceId⟩
      { query with limit := some limit, cursor := none } nowMs (stores i)
    let merged ← mergeWorkspaces limit nowMs stores rest (i + 1)
    return res.1 ++ merged

/-- `stores i k` is the store at the `k`-th read of the `i`-th workspace list. -/
def listJobsForDevice (nowMs : Nat) (stores : Nat → Nat → Redis) :
    Except V2Error (List HostJobSummary × Option StreamId) :=
  match deviceWorkspaces control deviceId query with
  | [] => return ([], none)
  | [workspaceId] => listJobsForHost control ⟨userId, workspaceId⟩ query nowMs (stores 0)
  | workspaceIds => do
    let limit := min (max 1 (query.limit.getD jobListDefaultLimit)) jobListMaxLimit
    let merged ← mergeWorkspaces control userId query limit nowMs stores workspaceIds 0
    let sorted := merged.mergeSort fun a b => !isoBefore a.createdAt b.createdAt
    return (sorted.take limit.toNat, none)

/-! ### confinement -/

/-- The stores of one call, with the scripts of others run between any two reads. -/
structure History (stores : Nat → Nat → Redis) : Prop where
  start : coordinated.Reachable (stores 0 0)
  runs : ∀ i k, ∃ l, coordinated.Run (stores i k) l (stores i (k + 1))
  next : ∀ i k, ∃ l, coordinated.Run (stores i k) l (stores (i + 1) 0)

/-- The two stores have the same jobs, attempts and stream rows of these targets. -/
structure AgreeOn (targets : List String) (r r' : Redis) : Prop where
  jobs : ∀ id job, job.targetId ∈ targets → (r.jobs id = some job ↔ r'.jobs id = some job)
  attempts : ∀ id att, att.targetId ∈ targets → (r.attempts id = some att ↔ r'.attempts id = some att)
  stream : r.stream.filter (fun e => targets.contains e.2.targetId) =
    r'.stream.filter fun e => targets.contains e.2.targetId

/-- The device sees its targets' jobs alone, and nothing of any other. -/
structure Confined : Prop where
  bound : ∀ stores, History stores → ∀ nowMs page,
    listJobsForDevice control deviceId userId query nowMs stores = .ok page →
    ∀ summary ∈ page.1, summary.targetId ∈ control.boundTargets deviceId
  same : ∀ stores stores', History stores → History stores' →
    (∀ i k, AgreeOn (control.boundTargets deviceId) (stores i k) (stores' i k)) → ∀ nowMs,
    listJobsForDevice control deviceId userId query nowMs stores =
      listJobsForDevice control deviceId userId query nowMs stores'

/-- The call gets to the rows of a workspace, below a cursor that has rows below it, and some
target there can be is not bound to the device. -/
def ListsWorkspace : Prop :=
  (∃ workspaceId rest, deviceWorkspaces control deviceId query = workspaceId :: rest ∧
    assertHostWorkspaceAccess control ⟨userId, workspaceId⟩ = .ok () ∧
    listTargetAllowed control ⟨userId, workspaceId⟩ query.targetId = .ok () ∧
    (rest = [] → ∀ cursor, query.cursor = some cursor → 0 < cursor.ms ∨ 1 < cursor.seq)) ∧
  ∃ t, targetIdV2Re t = true ∧ t ∉ control.boundTargets deviceId

end list

/-! ### what is stored -/

/-- Every stored target is well formed, and no stream entry is before `0-1`. -/
structure Indexed (r : Redis) : Prop where
  jobs {id : String} {job : JobRecordV2} : r.jobs id = some job → targetIdV2Re job.targetId = true
  rows {e : StreamId × JobStreamEntryV2} : e ∈ r.stream →
    targetIdV2Re e.2.targetId = true ∧ (0 < e.1.ms ∨ 0 < e.1.seq)

theorem JobRecordV2.Accepted.target {job : JobRecordV2} (h : job.Accepted) :
    targetIdV2Re job.targetId = true :=
  h ⟨targetIdV2Re job.targetId, "Invalid job record: 'target_id' must be formatted as tgt_<uuid>."⟩
    (by simp [jobRecordGuards, jobFieldGuards])

theorem createJob_stream (now : Nat) (job : JobRecordV2) (requestId : String) (r : Redis) :
    (createJob now job requestId r).2.stream = r.stream ∨ ∃ row, targetIdV2Re row.targetId = true ∧
      (createJob now job requestId r).2.stream = r.stream ++ [(r.lastStreamId.next now, row)] := by
  unfold createJob
  cases hs : serializeJobRecordV2 job with
  | error m => exact .inl rfl
  | ok record =>
    obtain ⟨rfl, hacc⟩ := parseJobRecordV2_ok hs
    simp only [v2CreateJobScript]
    cases r.requests (requestKeyV2 record.userId record.workspaceId requestId) with
    | some e => exact .inl rfl
    | none =>
      split_ifs
      · exact .inl rfl
      · exact .inl rfl
      · exact .inr ⟨_, hacc.target, rfl⟩

/-- The scripts that end with a reply and a store leave the stream to `create`. -/
theorem claimJob_stream (now : Nat) (p : ClaimParams) (r : Redis) :
    (claimJob now p r).2.stream = r.stream := by
  have hsnd : (claimJob now p r).2 = (claimScript now p r).2 := by
    unfold claimJob
    rcases claimScript now p r with ⟨_ | _, r'⟩ <;> rfl
  rw [hsnd, claimScript, v2ClaimJobScript]
  repeat' split
  all_goals rfl

theorem cancelJob_stream (now : Nat) (p : CancelParams) (r : Redis) :
    (cancelJob now p r).2.stream = r.stream := by
  have hsnd : (cancelJob now p r).2 = (cancelScript now p r).2 := by
    unfold cancelJob
    rcases cancelScript now p r with ⟨_ | _, r'⟩ <;> rfl
  rw [hsnd, cancelScript, v2CancelJobScript]
  dsimp only
  repeat' split
  all_goals rfl

theorem RecordsOnly.stream {r r' : Redis} (h : RecordsOnly r r') : r'.stream = r.stream := by
  obtain ⟨jobs, attempts, rfl⟩ := h
  rfl

theorem exec_stream (now : Nat) (r : Redis) (c : Call) :
    (exec now r c).stream = r.stream ∨ ∃ row, targetIdV2Re row.targetId = true ∧
      (exec now r c).stream = r.stream ++ [(r.lastStreamId.next now, row)] := by
  cases c with
  | create job requestId => exact createJob_stream now job requestId r
  | claim p => exact .inl (claimJob_stream now p r)
  | start p => exact .inl (startJob_recordsOnly now p r).stream
  | report p rep => exact .inl (reportJob_recordsOnly now p rep r).stream
  | cancel p => exact .inl (cancelJob_stream now p r)
  | recordResult p result mode => exact .inl (recordJobResult_recordsOnly now p result mode r).stream
  | setFence t f => exact .inl rfl
  | pruneTargetQueue t id => exact .inl rfl

namespace Indexed

variable {r r' : Redis}

theorem empty : Indexed Redis.empty where
  jobs h := by simp [Redis.empty] at h
  rows h := by simp [Redis.empty] at h

theorem next_pos (last : StreamId) (now : Nat) :
    0 < (last.next now).ms ∨ 0 < (last.next now).seq := by
  unfold StreamId.next
  split
  next h => exact .inl (lt_of_le_of_lt (Nat.zero_le _) h)
  next => exact .inr (Nat.succ_pos _)

theorem jobs_step (I : Indexed r) {now : Nat} {c : Call} (e : Effect now r r' c) {id : String}
    {job : JobRecordV2} (h : r'.jobs id = some job) : targetIdV2Re job.targetId = true := by
  have write (k : String) (j : JobRecordV2)
      (jobs : r'.jobs = update r.jobs k (some (Cjson.encodeJob j)))
      (hj : targetIdV2Re j.targetId = true) : targetIdV2Re job.targetId = true := by
    rw [jobs, update_eq_some] at h
    rcases h with ⟨-, rfl⟩ | ⟨-, h⟩
    · rwa [encodeJob_targetId]
    · exact I.jobs h
  cases e with
  | frame jobs | started _ _ _ _ _ _ jobs | recorded _ _ _ jobs => exact I.jobs (jobs ▸ h)
  | created entry accepted fresh jobs =>
    have hj := accepted.target
    exact write _ _ jobs hj
  | claimed job job_at jobId workspace target isNew queued live fresh unfenced jobs =>
    have hj := I.jobs job_at
    exact write _ _ jobs hj
  | reported job att owns attemptId active phase jobs =>
    have hj := I.jobs owns.job_at
    exact write _ _ jobs hj
  | cancelledActive job att job_at active attempt_at expected jobId latest phase jobs =>
    have hj := I.jobs job_at
    exact write _ _ jobs hj
  | cancelledQueued job job_at queued jobs =>
    have hj := I.jobs job_at
    exact write _ _ jobs hj

theorem step (I : Indexed r) (now : Nat) (c : Call) : Indexed (exec now r c) := by
  refine ⟨I.jobs_step (exec_effect now r c), fun {e} he => ?_⟩
  rcases exec_stream now r c with hs | ⟨row, hrow, hs⟩
  · exact I.rows (hs ▸ he)
  · rw [hs, List.mem_append] at he
    rcases he with he | he
    · exact I.rows he
    · rw [List.mem_singleton.1 he]
      exact ⟨hrow, next_pos _ now⟩

theorem scripts_step {a : Nat × Call} (I : Indexed r) (h : scripts.Step r a r') : Indexed r' := by
  obtain rfl : r' = exec a.1 r a.2 := h
  exact I.step a.1 a.2

end Indexed

namespace History

variable {stores : Nat → Nat → Redis}

theorem reachable (H : History stores) (i k : Nat) : scripts.Reachable (stores i k) := by
  have first (i : Nat) (h : scripts.Reachable (stores i 0)) (k : Nat) :
      scripts.Reachable (stores i k) := by
    induction k with
    | zero => exact h
    | succ k ih =>
      obtain ⟨l, run⟩ := H.runs i k
      exact ih.run run.of_guard
  induction i generalizing k with
  | zero => exact first 0 H.start.of_guard k
  | succ i ih =>
    obtain ⟨l, run⟩ := H.next i 0
    exact first (i + 1) ((ih 0).run run.of_guard) k

theorem linkage (H : History stores) (i k : Nat) : Linkage (stores i k) :=
  linkage_reachable (H.reachable i k)

theorem indexed (H : History stores) (i k : Nat) : Indexed (stores i k) := by
  refine (H.reachable i k).inv ?_ Indexed.scripts_step
  rintro _ rfl
  exact Indexed.empty

theorem run (H : History stores) (i k : Nat) :
    ∃ l, scripts.Run (stores i k) l (stores i (k + 1)) := by
  obtain ⟨l, run⟩ := H.runs i k
  exact ⟨l, run.of_guard⟩

/-- A store that stays as it is. -/
theorem const {r : Redis} (h : coordinated.Reachable r) : History fun _ _ => r :=
  ⟨h, fun _ _ => ⟨[], .nil _⟩, fun _ _ => ⟨[], .nil _⟩⟩

end History

/-! ### a page of one workspace -/

theorem listedRow_job {control : Control} {query : ListJobsQuery} {nowMs : Nat}
    {row : JobStreamEntryV2} {atJob atAttempt : Redis} {summary : HostJobSummary}
    (h : listedRow control query nowMs row atJob atAttempt = .ok (some summary)) :
    ∃ job, atJob.jobs row.jobId = some job ∧ summary.targetId = job.targetId ∧
      targetFilter query job = true := by
  obtain ⟨job, hjob, h⟩ := bind_eq_ok.1 h
  have stored : atJob.jobs row.jobId = some job := by
    obtain ⟨o, ho, hm⟩ := bind_eq_ok.1 hjob
    cases o with
    | none => cases hm
    | some j =>
      dsimp only at hm
      split_ifs at hm
      cases hm
      exact getJob_stored ho
  split_ifs at h with hf
  · cases h
  · refine ⟨job, stored, ?_, by simpa using hf⟩
    obtain ⟨att, -, h⟩ := bind_eq_ok.1 h
    obtain ⟨state, -, h⟩ := bind_eq_ok.1 h
    split_ifs at h
    · obtain ⟨x, hx, h⟩ := bind_eq_ok.1 h
      cases h
      obtain ⟨alias_, -, hx⟩ := bind_eq_ok.1 hx
      obtain ⟨expiresAt, -, hx⟩ := bind_eq_ok.1 hx
      obtain ⟨createdAt, -, hx⟩ := bind_eq_ok.1 hx
      cases hx
      rfl
    · cases h

/-- Every summary of a page shows a stored job, and the page's target filter lets it pass. -/
theorem page_job {control : Control} {scope : Scope} {query : ListJobsQuery} {nowMs : Nat}
    {stores : Nat → Redis} (L : ∀ k, Linkage (stores k))
    (runs : ∀ k, ∃ l, scripts.Run (stores k) l (stores (k + 1)))
    {page : List HostJobSummary × Option StreamId}
    (h : listJobsForHost control scope query nowMs stores = .ok page) {summary : HostJobSummary}
    (hs : summary ∈ page.1) :
    ∃ k id job, (stores k).jobs id = some job ∧ summary.targetId = job.targetId ∧
      targetFilter query job = true := by
  obtain ⟨-, -, h⟩ := bind_eq_ok.1 h
  obtain ⟨-, -, h⟩ := bind_eq_ok.1 h
  obtain ⟨s, hscan, h⟩ := bind_eq_ok.1 h
  cases h
  obtain ⟨row, k, hrow, -⟩ := (scanBatches_spec control scope query nowMs _ L runs _ _).2 s hscan
    .nil summary hs
  obtain ⟨job, hj, ht, hf⟩ := listedRow_job hrow
  exact ⟨k, row.jobId, job, hj, ht, hf⟩

/-- What a list reads of a store. -/
def Redis.listed (r : Redis) : Redis :=
  { Redis.empty with jobs := r.jobs, attempts := r.attempts, stream := r.stream }

section listed

variable (control : Control) (scope : Scope) (query : ListJobsQuery) (nowMs limit : Nat)
  (stores : Nat → Redis)

theorem scanRow_listed (row : StreamId × JobStreamEntryV2) (s : Scan) :
    scanRow control scope query nowMs limit stores row s =
      scanRow control scope query nowMs limit (fun k => (stores k).listed) row s := rfl

theorem scanRows_listed (rows : List (StreamId × JobStreamEntryV2)) (s : Scan) :
    scanRows control scope query nowMs limit stores rows s =
      scanRows control scope query nowMs limit (fun k => (stores k).listed) rows s := by
  induction rows generalizing s with
  | nil => rfl
  | cons row rows ih =>
    unfold scanRows
    rw [scanRow_listed]
    congr 1
    funext x
    dsimp only
    split
    · rfl
    · exact ih x.1

theorem scanBatches_listed (fuel : Nat) (s : Scan) :
    scanBatches control scope query nowMs limit stores fuel s =
      scanBatches control scope query nowMs limit (fun k => (stores k).listed) fuel s := by
  induction fuel generalizing s with
  | zero => rfl
  | succ fuel ih =>
    have rows : readJobStreamReverse (stores s.moment).listed s.cursor =
        readJobStreamReverse (stores s.moment) s.cursor := rfl
    unfold scanBatches
    rw [rows]
    simp only [← scanRows_listed, ← ih]

theorem listJobsForHost_listed :
    listJobsForHost control scope query nowMs stores =
      listJobsForHost control scope query nowMs fun k => (stores k).listed := by
  unfold listJobsForHost
  simp only [scanBatches_listed control scope query nowMs _ stores]

end listed

/-! ### a job of somebody else's target -/

/-- A submission to that target, in that workspace. -/
def strayInput (targetId : String) : SubmitJobInput :=
  { requestId := sampleJob.requestId
    targetId := targetId
    prompt := "p"
    acceptance := "a"
    resourceId := none
    executionTimeoutSeconds := 60
    resultTarget := .none }

def strayJob (workspaceId targetId : String) (now : Nat) : JobRecordV2 :=
  submitRecord ⟨"usr_1", workspaceId⟩ (strayInput targetId) sampleJob.jobId sampleJob.requestDigest now

/-- A server time of more than 14 digits. -/
def lateMs : Nat := 100000000000001

def strayStore (workspaceId targetId : String) : Redis :=
  replay [(0, .create (strayJob workspaceId targetId lateMs) sampleJob.requestId)]

section stray

variable {workspaceId targetId : String} (hws : tenantIdOk workspaceId = true)
  (ht : targetIdV2Re targetId = true)

include hws ht

theorem strayJob_accepted {now : Nat} (hnow : now + jobClaimTtlMsV2 ≤ maxSafeInteger) :
    (strayJob workspaceId targetId now).Accepted := by
  have hid : jobIdV2Re sampleJob.jobId = true := by decide
  have hreq : requestIdV2Re sampleJob.requestId = true := by decide
  have huser : tenantIdOk "usr_1" = true := by decide
  have hdigest : hex64Re sampleJob.requestDigest = true := by decide
  have hle : now ≤ maxSafeInteger := by omega
  have hpos : 0 < jobClaimTtlMsV2 := by decide
  refine (JobRecordV2.accepted_iff _).2 ⟨?_, ?_, fun c hc => (by cases hc)⟩
  · simp only [jobFieldGuards, strayJob, submitRecord, strayInput, Guard.all_cons, Guard.all_nil,
      and_true]
    have horder : (now < now + jobClaimTtlMsV2 && now + jobClaimTtlMsV2 ≤ maxSafeInteger) = true := by
      simp only [Bool.and_eq_true, decide_eq_true_eq]
      omega
    refine ⟨by decide, hid, hreq, huser, hws, ht, ?_⟩
    exact ⟨by decide, decide_eq_true (by decide), by decide, decide_eq_true (by decide), rfl, rfl, rfl,
      hdigest, decide_eq_true hle, horder⟩
  · simp [jobStateGuards, strayJob, submitRecord, optAll]

theorem strayStore_eq :
    (strayStore workspaceId targetId).jobs = update Redis.empty.jobs sampleJob.jobId
      (some (Cjson.encodeJob (createdJob (strayJob workspaceId targetId lateMs) ⟨0, 1⟩))) ∧
    (strayStore workspaceId targetId).attempts = Redis.empty.attempts ∧
    (strayStore workspaceId targetId).stream = [(⟨0, 1⟩, ⟨streamV2SchemaVersion, sampleJob.jobId,
      "usr_1", workspaceId, targetId, lateMs⟩)] := by
  have hacc := @strayJob_accepted _ _ hws ht lateMs (by decide)
  have hser := (parseJobRecordV2_ok_iff _).2 hacc
  simp only [strayStore, replay, List.foldl_cons, List.foldl_nil, exec, createJob,
    serializeJobRecordV2, hser]
  exact ⟨rfl, rfl, rfl⟩

end stray

section evaluate

variable {control : Control} {userId : String} {query : ListJobsQuery} {nowMs : Nat}

theorem listLimit_pos (query : ListJobsQuery) : 0 < listLimit query := by
  unfold listLimit jobListMaxLimit
  omega

/-- Once access is settled, the list is its scan. -/
theorem listJobsForHost_scan {scope : Scope} {stores : Nat → Redis}
    (access : assertHostWorkspaceAccess control scope = .ok ())
    (target : listTargetAllowed control scope query.targetId = .ok ()) :
    listJobsForHost control scope query nowMs stores =
      (scanBatches control scope query nowMs (listLimit query) stores jobListMaxScanned
        (Scan.start query)).map fun s => (s.jobs, s.nextCursor) := by
  simp only [listJobsForHost, access, target, bind, Except.bind]
  rfl

/-- A first batch without rows ends the scan. -/
theorem list_no_rows {scope : Scope} {stores : Nat → Redis}
    (access : assertHostWorkspaceAccess control scope = .ok ())
    (target : listTargetAllowed control scope query.targetId = .ok ())
    (rows : ∀ count, readJobStreamReverse (stores 0) query.cursor count = []) :
    listJobsForHost control scope query nowMs stores = .ok ([], none) := by
  rw [listJobsForHost_scan access target]
  show (scanBatches control scope query nowMs (listLimit query) stores (255 + 1)
    (Scan.start query)).map _ = _
  have go : (Scan.start query).jobs.length < listLimit query ∧
      (Scan.start query).totalScanned < jobListMaxScanned :=
    ⟨listLimit_pos query, show 0 < 256 by decide⟩
  unfold scanBatches
  rw [if_pos go]
  simp only [Scan.start, rows]
  rfl

/-- The row of `strayStore`. -/
def strayRow (workspaceId targetId : String) : JobStreamEntryV2 :=
  ⟨streamV2SchemaVersion, sampleJob.jobId, "usr_1", workspaceId, targetId, lateMs⟩

theorem strayRow_valid {workspaceId targetId : String} (hws : tenantIdOk workspaceId = true)
    (ht : targetIdV2Re targetId = true) :
    Guard.run (streamEntryGuards (strayRow workspaceId targetId)) = .ok () := by
  rw [Guard.run_ok_iff]
  simp only [streamEntryGuards, strayRow, Guard.all_cons, Guard.all_nil, and_true]
  exact ⟨by decide, by decide, by decide, hws, ht, decide_eq_true (by decide)⟩

/-- A row that disagrees with its job on the creation time fails the list. -/
theorem scanRow_stray {workspaceId targetId : String} (hws : tenantIdOk workspaceId = true)
    (ht : targetIdV2Re targetId = true) (limit : Nat) (id : StreamId) (s : Scan) :
    scanRow control ⟨userId, workspaceId⟩ query nowMs limit
      (fun _ => strayStore workspaceId targetId) (id, strayRow workspaceId targetId) s =
      .error (.store .corruptJobIndex) := by
  obtain ⟨hjobs, -, -⟩ := strayStore_eq hws ht
  have hacc := @strayJob_accepted _ _ hws ht lateMs (by decide)
  have closed := JobRecordV2.Closed.created hacc (shows_of_le (by decide)) (by decide) ⟨0, 1⟩
  have hget : getJob (strayStore workspaceId targetId) sampleJob.jobId =
      .ok (some (Cjson.encodeJob (createdJob (strayJob workspaceId targetId lateMs) ⟨0, 1⟩))) := by
    have hp := (parseJobRecordV2_ok_iff _).2 closed.accepted
    unfold getJob
    rw [hjobs, update_self]
    simp only [strayJob, hp, schemaError, Except.map]
  have hne : (Cjson.encodeJob (createdJob (strayJob workspaceId targetId lateMs) ⟨0, 1⟩)).createdAtMs ≠
      lateMs := by
    simp only [Cjson.encodeJob, createdJob, strayJob, submitRecord]
    decide
  have hrow : listedRow control query nowMs (strayRow workspaceId targetId)
      (strayStore workspaceId targetId) (strayStore workspaceId targetId) =
      .error (.store .corruptJobIndex) := by
    have hjob : listedJob (strayRow workspaceId targetId) (strayStore workspaceId targetId) =
        .error (.store .corruptJobIndex) := by
      unfold listedJob
      show (getJob _ sampleJob.jobId >>= _) = _
      rw [hget]
      exact if_pos (.inr (.inr (.inr (.inr hne))))
    unfold listedRow
    rw [hjob]
    rfl
  have hown : ¬(strayRow workspaceId targetId).workspaceId ≠ workspaceId := fun h => h rfl
  unfold scanRow
  rw [show tenantIdOk (strayRow workspaceId targetId).workspaceId = true from hws]
  simp only [Bool.not_true, Bool.false_eq_true, if_false, if_neg hown, strayRow_valid hws ht, hrow]
  rfl

theorem list_stray {workspaceId targetId : String} (hws : tenantIdOk workspaceId = true)
    (ht : targetIdV2Re targetId = true)
    (access : assertHostWorkspaceAccess control ⟨userId, workspaceId⟩ = .ok ())
    (target : listTargetAllowed control ⟨userId, workspaceId⟩ query.targetId = .ok ())
    (cursor : ∀ c, query.cursor = some c → 0 < c.ms ∨ 1 < c.seq) :
    listJobsForHost control ⟨userId, workspaceId⟩ query nowMs
      (fun _ => strayStore workspaceId targetId) = .error (.store .corruptJobIndex) := by
  obtain ⟨-, -, hstream⟩ := strayStore_eq hws ht
  have rows (n : Nat) : readJobStreamReverse (strayStore workspaceId targetId) query.cursor (n + 1) =
      [(⟨0, 1⟩, strayRow workspaceId targetId)] := by
    unfold readJobStreamReverse
    rw [hstream]
    cases hc : query.cursor with
    | none => simp [strayRow]
    | some c =>
      have hbelow : (decide (0 < c.ms) || ((0 == c.ms) && decide (1 < c.seq))) = true := by
        rcases cursor c hc with h | h
        · simp [h]
        · rcases Nat.eq_zero_or_pos c.ms with h0 | h0
          · simp [h0, h]
          · simp [h0]
      simp [hbelow, strayRow]
  have batch : min jobListScanBatch (jobListMaxScanned - 0) = 63 + 1 := by decide
  rw [listJobsForHost_scan access target]
  show (scanBatches control _ query nowMs (listLimit query) _ (255 + 1) (Scan.start query)).map _ = _
  have go : (Scan.start query).jobs.length < listLimit query ∧
      (Scan.start query).totalScanned < jobListMaxScanned :=
    ⟨listLimit_pos query, show 0 < 256 by decide⟩
  unfold scanBatches
  rw [if_pos go]
  simp only [Scan.start, batch, rows, scanRows, scanRow_stray hws ht]
  rfl

end evaluate

/-! ### the device's list -/

section device

variable {control : Control} {deviceId userId : String} {query : ListJobsQuery} {nowMs : Nat}
  {stores stores' : Nat → Nat → Redis}

theorem mergeWorkspaces_listed (limit : Int) (stores : Nat → Nat → Redis)
    (workspaceIds : List String) (i : Nat) :
    mergeWorkspaces control userId query limit nowMs stores workspaceIds i =
      mergeWorkspaces control userId query limit nowMs (fun i k => (stores i k).listed)
        workspaceIds i := by
  induction workspaceIds generalizing i with
  | nil => rfl
  | cons workspaceId rest ih =>
    unfold mergeWorkspaces
    rw [listJobsForHost_listed, ih]

theorem listJobsForDevice_listed (stores : Nat → Nat → Redis) :
    listJobsForDevice control deviceId userId query nowMs stores =
      listJobsForDevice control deviceId userId query nowMs fun i k => (stores i k).listed := by
  unfold listJobsForDevice
  split
  · rfl
  · exact listJobsForHost_listed ..
  · dsimp only
    rw [mergeWorkspaces_listed _ stores]

theorem merged_page {limit : Int} {workspaceIds : List String} {i : Nat}
    {merged : List HostJobSummary}
    (h : mergeWorkspaces control userId query limit nowMs stores workspaceIds i = .ok merged)
    {summary : HostJobSummary} (hs : summary ∈ merged) :
    ∃ i workspaceId q res, q.targetId = query.targetId ∧
      listJobsForHost control ⟨userId, workspaceId⟩ q nowMs (stores i) = .ok res ∧
      summary ∈ res.1 := by
  induction workspaceIds generalizing i merged with
  | nil =>
    cases h
    cases hs
  | cons workspaceId rest ih =>
    obtain ⟨res, hres, h⟩ := bind_eq_ok.1 h
    obtain ⟨more, hmore, h⟩ := bind_eq_ok.1 h
    cases h
    rcases List.mem_append.1 hs with hs | hs
    · exact ⟨i, workspaceId, { query with limit := some limit, cursor := none }, res, rfl, hres, hs⟩
    · exact ih hmore hs

/-- Every summary of the page comes from the list of one of the workspaces. -/
theorem device_page {page : List HostJobSummary × Option StreamId}
    (h : listJobsForDevice control deviceId userId query nowMs stores = .ok page)
    {summary : HostJobSummary} (hs : summary ∈ page.1) :
    ∃ i workspaceId q res, q.targetId = query.targetId ∧
      listJobsForHost control ⟨userId, workspaceId⟩ q nowMs (stores i) = .ok res ∧
      summary ∈ res.1 := by
  unfold listJobsForDevice at h
  split at h
  · cases h
    cases hs
  next workspaceId _ => exact ⟨0, workspaceId, query, page, rfl, h, hs⟩
  · obtain ⟨merged, hm, h⟩ := bind_eq_ok.1 h
    cases h
    exact merged_page hm ((List.mergeSort_perm merged _).mem_iff.1 (List.mem_of_mem_take hs))

/-- Every summary shows a stored job that the target filter lets pass. -/
theorem device_page_job (H : History stores) {page : List HostJobSummary × Option StreamId}
    (h : listJobsForDevice control deviceId userId query nowMs stores = .ok page)
    {summary : HostJobSummary} (hs : summary ∈ page.1) :
    ∃ i k id job, (stores i k).jobs id = some job ∧ summary.targetId = job.targetId ∧
      targetFilter query job = true := by
  obtain ⟨i, workspaceId, q, res, hq, hres, hs⟩ := device_page h hs
  obtain ⟨k, id, job, hj, ht, hf⟩ := page_job (H.linkage i) (H.run i) hres hs
  refine ⟨i, k, id, job, hj, ht, ?_⟩
  rwa [targetFilter, ← hq]

/-- Where every target there can be is the device's, agreeing on them is agreeing. -/
theorem AgreeOn.listed_eq {targets : List String} {r r' : Redis} (A : AgreeOn targets r r')
    (all : ∀ t, targetIdV2Re t = true → t ∈ targets) (I : Indexed r) (I' : Indexed r')
    (L : Linkage r) (L' : Linkage r') : r.listed = r'.listed := by
  have jobs : r.jobs = r'.jobs := by
    funext id
    ext job
    exact ⟨fun h => (A.jobs id job (all _ (I.jobs h))).1 h,
      fun h => (A.jobs id job (all _ (I'.jobs h))).2 h⟩
  have target {r : Redis} (I : Indexed r) (L : Linkage r) {id : String} {att : AttemptRecordV1}
      (h : r.attempts id = some att) : att.targetId ∈ targets := by
    obtain ⟨job, hj, hl⟩ := L.latest_of_owned h
    exact all _ (hl.ids.targetId ▸ I.jobs hj)
  have attempts : r.attempts = r'.attempts := by
    funext id
    ext att
    exact ⟨fun h => (A.attempts id att (target I L h)).1 h,
      fun h => (A.attempts id att (target I' L' h)).2 h⟩
  have rows {r : Redis} (I : Indexed r) :
      r.stream.filter (fun e => targets.contains e.2.targetId) = r.stream :=
    List.filter_eq_self.2 fun e he => List.contains_iff_mem.2 (all _ (I.rows he).1)
  have stream : r.stream = r'.stream := by
    rw [← rows I, ← rows I']
    exact A.stream
  simp only [Redis.listed, jobs, attempts, stream]

/-- A call that lists no workspace shows nothing, and says the same whatever is stored. -/
theorem idle (unbound : ∃ t, targetIdV2Re t = true ∧ t ∉ control.boundTargets deviceId)
    (h : ¬ListsWorkspace control deviceId userId query) :
    ∃ answer : Except V2Error (List HostJobSummary × Option StreamId),
      (∀ page, answer = .ok page → page.1 = []) ∧ ∀ stores, History stores → ∀ nowMs,
        listJobsForDevice control deviceId userId query nowMs stores = answer := by
  have failed {workspaceId : String} {rest : List String} {e : V2Error}
      (hw : deviceWorkspaces control deviceId query = workspaceId :: rest)
      (fails : ∀ q : ListJobsQuery, q.targetId = query.targetId → ∀ nowMs stores,
        listJobsForHost control ⟨userId, workspaceId⟩ q nowMs stores = .error e)
      (nowMs : Nat) (stores : Nat → Nat → Redis) :
      listJobsForDevice control deviceId userId query nowMs stores = .error e := by
    unfold listJobsForDevice
    rw [hw]
    cases rest with
    | nil => exact fails query rfl nowMs _
    | cons w rest =>
      dsimp only
      unfold mergeWorkspaces
      rw [fails { query with
        limit := some (min (max 1 (query.limit.getD jobListDefaultLimit)) jobListMaxLimit)
        cursor := none } rfl]
      rfl
  cases hw : deviceWorkspaces control deviceId query with
  | nil =>
    refine ⟨.ok ([], none), fun page hp => ?_, fun stores _ nowMs => ?_⟩
    · cases hp
      rfl
    · unfold listJobsForDevice
      rw [hw]
      rfl
  | cons workspaceId rest =>
    cases hacc : assertHostWorkspaceAccess control ⟨userId, workspaceId⟩ with
    | error e =>
      refine ⟨.error e, fun page hp => (by cases hp), fun stores _ nowMs => failed hw ?_ _ _⟩
      intro q _ nowMs stores
      simp [listJobsForHost, hacc, bind, Except.bind]
    | ok _ =>
    cases htar : listTargetAllowed control ⟨userId, workspaceId⟩ query.targetId with
    | error e =>
      refine ⟨.error e, fun page hp => (by cases hp), fun stores _ nowMs => failed hw ?_ _ _⟩
      intro q hq nowMs stores
      simp [listJobsForHost, hacc, hq, htar, bind, Except.bind]
    | ok _ =>
      -- what is left is a cursor with nothing below it
      have hcur : rest = [] ∧ ∃ c, query.cursor = some c ∧ ¬(0 < c.ms ∨ 1 < c.seq) := by
        by_contra hn
        refine h ⟨⟨workspaceId, rest, hw, hacc, htar, fun hrest c hc => ?_⟩, unbound⟩
        by_contra hlow
        exact hn ⟨hrest, c, hc, hlow⟩
      obtain ⟨rfl, c, hc, hlow⟩ := hcur
      refine ⟨.ok ([], none), fun page hp => ?_, fun stores H nowMs => ?_⟩
      · cases hp
        rfl
      · unfold listJobsForDevice
        rw [hw]
        refine list_no_rows hacc htar fun count => ?_
        unfold readJobStreamReverse
        have none_below : ((stores 0 0).stream.reverse.filter fun row =>
            row.1.ms < c.ms || (row.1.ms == c.ms && row.1.seq < c.seq)) = [] := by
          refine List.filter_eq_nil_iff.2 fun row hrow => ?_
          have hpos := ((H.indexed 0 0).rows (List.mem_reverse.1 hrow)).2
          simp only [Bool.or_eq_true, Bool.and_eq_true, decide_eq_true_eq, beq_iff_eq]
          omega
        rw [hc]
        simp only [none_below, List.take_nil]

theorem confined_of_idle (h : ¬ListsWorkspace control deviceId userId query) :
    Confined control deviceId userId query := by
  by_cases unbound : ∃ t, targetIdV2Re t = true ∧ t ∉ control.boundTargets deviceId
  · obtain ⟨answer, empty, same⟩ := idle unbound h
    refine ⟨fun stores H nowMs page hp summary hs => ?_, fun stores stores' H H' _ nowMs => ?_⟩
    · rw [same stores H nowMs] at hp
      rw [empty page hp] at hs
      cases hs
    · rw [same stores H nowMs, same stores' H' nowMs]
  · have all : ∀ t, targetIdV2Re t = true → t ∈ control.boundTargets deviceId := by
      intro t ht
      by_contra hn
      exact unbound ⟨t, ht, hn⟩
    refine ⟨fun stores H nowMs page hp summary hs => ?_, fun stores stores' H H' A nowMs => ?_⟩
    · obtain ⟨i, k, id, job, hj, ht, -⟩ := device_page_job H hp hs
      rw [ht]
      exact all _ ((H.indexed i k).jobs hj)
    · rw [listJobsForDevice_listed stores, listJobsForDevice_listed stores']
      congr 1
      funext i k
      exact (A i k).listed_eq all (H.indexed i k) (H'.indexed i k) (H.linkage i k) (H'.linkage i k)

theorem emptyStore_rows (cursor : Option StreamId) (count : Nat) :
    readJobStreamReverse Redis.empty cursor count = [] := by
  unfold readJobStreamReverse
  cases cursor <;> simp [Redis.empty]

/-- On an empty store no workspace list fails for the rows it reads. -/
theorem list_empty_not_corrupt {scope : Scope} {e : V2Error}
    (h : listJobsForHost control scope query nowMs (fun _ => Redis.empty) = .error e) :
    e ≠ .store .corruptJobIndex := by
  cases hacc : assertHostWorkspaceAccess control scope with
  | error e' =>
    obtain ⟨m, rfl⟩ := assertHostWorkspaceAccess_error hacc
    simp only [listJobsForHost, hacc, bind, Except.bind] at h
    cases h
    exact V2Error.noConfusion
  | ok _ =>
  cases htar : listTargetAllowed control scope query.targetId with
  | error e' =>
    simp only [listJobsForHost, hacc, htar, bind, Except.bind] at h
    cases h
    rintro rfl
    unfold listTargetAllowed at htar
    split at htar
    · cases htar
    · split_ifs at htar
      · cases htar
      · split at htar
        · split_ifs at htar
          cases htar
        · cases htar
  | ok _ =>
    rw [list_no_rows hacc htar fun count => emptyStore_rows _ count] at h
    cases h

theorem merge_empty_not_corrupt {limit : Int} {workspaceIds : List String} {i : Nat} {e : V2Error}
    (h : mergeWorkspaces control userId query limit nowMs (fun _ _ => Redis.empty) workspaceIds i =
      .error e) : e ≠ .store .corruptJobIndex := by
  induction workspaceIds generalizing i with
  | nil => cases h
  | cons workspaceId rest ih =>
    unfold mergeWorkspaces at h
    cases hl : listJobsForHost control ⟨userId, workspaceId⟩
        { query with limit := some limit, cursor := none } nowMs (fun _ => Redis.empty) with
    | error e' =>
      rw [hl] at h
      exact Except.error.inj h ▸ list_empty_not_corrupt hl
    | ok res =>
    cases hm : mergeWorkspaces control userId query limit nowMs (fun _ _ => Redis.empty) rest
        (i + 1) with
    | error e' =>
      rw [hl, hm] at h
      cases h
      exact ih hm
    | ok more =>
      rw [hl, hm] at h
      cases h

theorem device_empty_not_corrupt {e : V2Error}
    (h : listJobsForDevice control deviceId userId query nowMs (fun _ _ => Redis.empty) = .error e) :
    e ≠ .store .corruptJobIndex := by
  unfold listJobsForDevice at h
  split at h
  · cases h
  · exact list_empty_not_corrupt h
  · dsimp only at h
    cases hm : mergeWorkspaces control userId query
        (min (max 1 (query.limit.getD jobListDefaultLimit)) jobListMaxLimit) nowMs
        (fun _ _ => Redis.empty) (deviceWorkspaces control deviceId query) 0 with
    | error e' =>
      rw [hm] at h
      cases h
      exact merge_empty_not_corrupt hm
    | ok merged =>
      rw [hm] at h
      cases h

/-- Every listed workspace is the one of a target the control store has. -/
theorem deviceWorkspaces_mem {workspaceId : String}
    (h : workspaceId ∈ deviceWorkspaces control deviceId query) :
    ∃ t target, control.getExecutionTarget t = some target ∧ target.workspaceId = workspaceId := by
  unfold deviceWorkspaces at h
  dsimp only at h
  split at h
  · obtain ⟨t, -, ht⟩ := List.mem_filterMap.1 (List.mem_eraseDups.1 h)
    obtain ⟨target, hget, rfl⟩ := Option.map_eq_some_iff.1 ht
    exact ⟨t, target, hget, rfl⟩
  next targetId _ =>
    split_ifs at h
    · obtain ⟨target, hget, rfl⟩ := List.mem_map.1 h
      exact ⟨targetId, target, Option.mem_toList.1 hget, rfl⟩
    · cases h

theorem strayStore_history {workspaceId targetId : String} :
    History fun _ _ => strayStore workspaceId targetId := by
  refine .const (coordinated_replay fun a ha => ?_)
  rw [List.mem_singleton] at ha
  subst ha
  exact ⟨⟨"usr_1", workspaceId⟩, strayInput targetId, sampleJob.jobId, sampleJob.requestDigest,
    lateMs, by decide, rfl, rfl⟩

/-- A job of a target that is not the device's is not told from none by what the device may see. -/
theorem strayStore_agrees {workspaceId targetId : String} (hws : tenantIdOk workspaceId = true)
    (ht : targetIdV2Re targetId = true) {targets : List String} (hn : targetId ∉ targets) :
    AgreeOn targets Redis.empty (strayStore workspaceId targetId) := by
  obtain ⟨hjobs, hatts, hstream⟩ := strayStore_eq hws ht
  refine ⟨fun id job hj => ?_, fun id att _ => by rw [hatts], ?_⟩
  · rw [hjobs, update_eq_some]
    constructor
    · intro h
      simp [Redis.empty] at h
    · rintro (⟨-, rfl⟩ | ⟨-, h⟩)
      · rw [encodeJob_targetId] at hj
        exact absurd hj hn
      · exact h
  · rw [hstream]
    simp [Redis.empty, hn]

/-- A call that gets to the rows of a workspace tells an unbound target's job from none. -/
theorem not_confined (hws : ∀ t target, control.getExecutionTarget t = some target →
      tenantIdOk target.workspaceId = true)
    (h : ListsWorkspace control deviceId userId query) :
    ¬Confined control deviceId userId query := by
  obtain ⟨⟨workspaceId, rest, hw, hacc, htar, hcur⟩, t, ht, hn⟩ := h
  intro C
  have tenant : tenantIdOk workspaceId = true := by
    obtain ⟨t', target, hget, rfl⟩ := deviceWorkspaces_mem (hw ▸ List.mem_cons_self)
    exact hws t' target hget
  have fails : listJobsForDevice control deviceId userId query 0
      (fun _ _ => strayStore workspaceId t) = .error (.store .corruptJobIndex) := by
    unfold listJobsForDevice
    rw [hw]
    cases rest with
    | nil => exact list_stray tenant ht hacc htar (hcur rfl)
    | cons w rest =>
      dsimp only
      unfold mergeWorkspaces
      have first : listJobsForHost control ⟨userId, workspaceId⟩ { query with
          limit := some (min (max 1 (query.limit.getD jobListDefaultLimit)) jobListMaxLimit)
          cursor := none } 0 (fun _ => strayStore workspaceId t) = .error (.store .corruptJobIndex) :=
        list_stray tenant ht hacc htar fun c hc => (by cases hc)
      rw [first]
      rfl
  have same := C.same _ _ (.const ⟨Redis.empty, [], rfl, .nil _⟩) strayStore_history
    (fun _ _ => strayStore_agrees tenant ht hn) 0
  rw [fails] at same
  exact device_empty_not_corrupt same rfl

/-- The device's list is confined to its targets exactly when it lists no workspace; a target
filter keeps the rows that are shown, and only those, to a target of the device. -/
theorem device_list_confined_iff (hws : ∀ t target, control.getExecutionTarget t = some target →
      tenantIdOk target.workspaceId = true) :
    (Confined control deviceId userId query ↔ ¬ListsWorkspace control deviceId userId query) ∧
    ∀ stores, History stores → ∀ targetId, filterTarget query = some targetId → ∀ nowMs page,
      listJobsForDevice control deviceId userId query nowMs stores = .ok page →
      ∀ summary ∈ page.1, summary.targetId = targetId ∧
        summary.targetId ∈ control.boundTargets deviceId := by
  refine ⟨⟨fun C h => not_confined hws h C, confined_of_idle⟩, ?_⟩
  intro stores H targetId hf nowMs page hp summary hs
  have hq : query.targetId = some targetId ∧ targetId ≠ "" := by
    unfold filterTarget at hf
    obtain ⟨hq, hne⟩ := Option.filter_eq_some_iff.1 hf
    exact ⟨hq, by simpa using hne⟩
  have bound : targetId ∈ control.boundTargets deviceId := by
    by_contra hn
    have none_listed : deviceWorkspaces control deviceId query = [] := by
      unfold deviceWorkspaces
      simp [hf, hn]
    unfold listJobsForDevice at hp
    rw [none_listed] at hp
    cases hp
    cases hs
  obtain ⟨i, k, id, job, -, ht, hpass⟩ := device_page_job H hp hs
  have hj : job.targetId = targetId := by
    simp only [targetFilter, hq.1, optAll] at hpass
    exact beq_iff_eq.1 hpass
  rw [ht, hj]
  exact ⟨rfl, bound⟩

end device

/-- A workspace with two targets, where the device is bound to one. -/
def sharedControl : Control :=
  { isUserActive := fun userId => userId == "usr_1"
    isMember := fun workspaceId userId => workspaceId == "ws_1" && userId == "usr_1"
    getExecutionTarget := fun targetId =>
      if targetId ∈ [ownTarget, sampleJob.targetId] then some ⟨targetId, "ws_1", "shared", none⟩
      else none
    boundTargets := fun deviceId => if deviceId = sharedDevice then [ownTarget] else []
    eligibleTargets := fun deviceId => if deviceId = sharedDevice then [ownTarget] else [] }
where
  ownTarget := "tgt_00000000-0000-4000-8000-000000000009"
  sharedDevice := "dev_00000000-0000-4000-8000-000000000005"

theorem sharedControl_tenant {t : String} {target : ExecutionTarget}
    (h : sharedControl.getExecutionTarget t = some target) : tenantIdOk target.workspaceId = true := by
  simp only [sharedControl] at h
  split_ifs at h
  cases h
  show tenantIdOk "ws_1" = true
  decide

def everyJob : ListJobsQuery :=
  { targetId := none
    state := none
    executionStatus := none
    limit := none
    cursor := none }

theorem device_list_confined_sample :
    (Confined sharedControl sharedControl.sharedDevice "usr_1" everyJob ↔
      ¬ListsWorkspace sharedControl sharedControl.sharedDevice "usr_1" everyJob) ∧
    ∀ stores, History stores → ∀ targetId, filterTarget everyJob = some targetId → ∀ nowMs page,
      listJobsForDevice sharedControl sharedControl.sharedDevice "usr_1" everyJob nowMs stores =
        .ok page →
      ∀ summary ∈ page.1, summary.targetId = targetId ∧
        summary.targetId ∈ sharedControl.boundTargets sharedControl.sharedDevice :=
  device_list_confined_iff fun _ _ h => sharedControl_tenant h

/-- A job of the workspace's other target. -/
def neighbourCalls : List (Nat × Call) :=
  [(1000, .create (strayJob "ws_1" sampleJob.targetId 1000) sampleJob.requestId)]

set_option maxRecDepth 10000 in
theorem neighbour_listed :
    (listJobsForDevice sharedControl sharedControl.sharedDevice "usr_1" everyJob 2000
      fun _ _ => replay neighbourCalls).toOption.map (fun page => page.1.map (·.targetId)) =
      some [sampleJob.targetId] := by
  decide +kernel

/-- Without a target filter the device is shown the job of a target it is not bound to. -/
theorem device_list_not_confined :
    ¬∀ control deviceId userId query, (∀ t target, control.getExecutionTarget t = some target →
      tenantIdOk target.workspaceId = true) → Confined control deviceId userId query := by
  intro h
  have C := h sharedControl sharedControl.sharedDevice "usr_1" everyJob
    fun _ _ ht => sharedControl_tenant ht
  have history : History fun _ _ => replay neighbourCalls := by
    refine .const (coordinated_replay fun a ha => ?_)
    rw [neighbourCalls, List.mem_singleton] at ha
    subst ha
    exact ⟨⟨"usr_1", "ws_1"⟩, strayInput sampleJob.targetId, sampleJob.jobId,
      sampleJob.requestDigest, 1000, by decide, rfl, rfl⟩
  have listed := neighbour_listed
  cases hl : listJobsForDevice sharedControl sharedControl.sharedDevice "usr_1" everyJob 2000
      (fun _ _ => replay neighbourCalls) with
  | error e =>
    rw [hl] at listed
    cases listed
  | ok page =>
    rw [hl] at listed
    have targets : page.1.map (·.targetId) = [sampleJob.targetId] := Option.some.inj listed
    have shown : sampleJob.targetId ∈ page.1.map (·.targetId) := by
      rw [targets]
      exact List.mem_singleton_self _
    obtain ⟨summary, hs, ht⟩ := List.mem_map.1 shown
    have bound := C.bound _ history 2000 page hl summary hs
    rw [ht] at bound
    exact absurd bound (by decide)

end Ceo.Jobs
