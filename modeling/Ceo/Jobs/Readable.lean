import Ceo.Jobs.Cancel
import Ceo.Jobs.Closure

/-!
# Readers of closed records

Over closed records no reader fails on what it reads: its parsers take every
record, and every time it shows is one `toISOString` can render. What it can
still fail with is a denied access, a bad argument or a torn pair.
-/

namespace Ceo.Jobs

open Ceo.Lib Function

/-! ### calls that do not fail on a record -/

/-- The answer is no error about an unreadable record. -/
def Fine {α : Type} (x : Except V2Error α) : Prop := ∀ e, x = .error e → e.isUnreadable = false

namespace Fine

variable {α β : Type}

theorem ok (a : α) : Fine (.ok a) := by
  rintro e ⟨⟩

theorem pure (a : α) : Fine (Pure.pure a : Except V2Error α) := .ok a

theorem error {e : V2Error} (h : e.isUnreadable = false) : Fine (.error e : Except V2Error α) := by
  rintro e' ⟨⟩
  exact h

theorem bind {x : Except V2Error α} {f : α → Except V2Error β} (hx : Fine x)
    (hf : ∀ a, x = .ok a → Fine (f a)) : Fine (x >>= f) := by
  intro e he
  rcases bind_eq_error.1 he with h | ⟨a, ha, h⟩
  · exact hx e h
  · exact hf a ha e h

theorem ite {c : Prop} [Decidable c] {x y : Except V2Error α} (hx : c → Fine x) (hy : ¬c → Fine y) :
    Fine (if c then x else y) := by
  split_ifs with h
  · exact hx h
  · exact hy h

end Fine

/-! ### a closed store -/

/-- The store of a closed world. -/
structure Readable (r : Redis) : Prop where
  job : ∀ id job, r.jobs id = some job → job.Closed
  attempt : ∀ id att, r.attempts id = some att → ∃ clock, att.Closed clock

theorem Closed.readable {w : World} (C : Closed w) : Readable w.redis :=
  ⟨C.job, fun id att h => ⟨w.clock, C.attempt id att h⟩⟩

section reads

variable {r : Redis} (R : Readable r)
include R

theorem Readable.getJob_ok (id : String) : getJob r id = .ok (r.jobs id) := by
  cases hj : r.jobs id with
  | none => exact getJob_of_none hj
  | some job =>
    rcases getJob_of_some hj with ⟨h, -⟩ | ⟨-, hrej⟩
    · exact h
    · exact absurd (R.job id job hj).accepted hrej

theorem Readable.getAttempt_ok (id : String) : getAttempt r id = .ok (r.attempts id) := by
  cases ha : r.attempts id with
  | none => simp [getAttempt, ha]
  | some att =>
    rcases getAttempt_of_some ha with ⟨h, -⟩ | ⟨-, hrej⟩
    · exact h
    · obtain ⟨clock, closed⟩ := R.attempt id att ha
      exact absurd closed.accepted hrej

/-- An attempt a reader gets is closed. -/
theorem Readable.hostAttempt_fine (job : JobRecordV2) :
    Fine (hostAttempt job r) ∧
      ∀ att, hostAttempt job r = .ok (some att) → ∃ clock, att.Closed clock := by
  unfold hostAttempt
  cases job.latestAttemptId with
  | none => exact ⟨.ok _, fun att h => by cases h⟩
  | some aid =>
    dsimp only
    rw [R.getAttempt_ok]
    cases ha : r.attempts aid with
    | none => exact ⟨.error rfl, fun att h => by cases h⟩
    | some att =>
      simp only [Bind.bind, Except.bind]
      refine ⟨.ite (fun _ => .error rfl) fun _ => .pure _, fun att' h => ?_⟩
      split_ifs at h
      cases h
      exact R.attempt aid att ha

end reads

theorem derive_error {job : JobRecordV2} {att : Option AttemptRecordV1} {nowMs : Nat} {e : V2Error}
    (h : deriveHostJobState job att nowMs = .error e) : e = .store .corruptJobState := by
  unfold deriveHostJobState at h
  cases hs : job.status with
  | preparing => simpa [hs] using h.symm
  | queued =>
    simp only [hs] at h
    split_ifs at h
  | active =>
    cases att with
    | none => simpa [hs] using h.symm
    | some att => cases hp : att.phase <;> simp_all
  | terminal =>
    cases att with
    | none =>
      simp only [hs] at h
      split_ifs at h
      exact (Except.error.inj h).symm
    | some att => cases hp : att.phase <;> simp_all

theorem derive_fine (job : JobRecordV2) (att : Option AttemptRecordV1) (nowMs : Nat) :
    Fine (deriveHostJobState job att nowMs) := by
  intro e h
  rw [derive_error h]
  rfl

theorem toIso_fine {ms : Nat} (h : ms ≤ maxDateMs) : Fine (toIso ms) := by
  unfold toIso
  rw [if_pos h]
  exact .ok _

theorem toIsoOpt_fine {ms : Option Nat} (h : ∀ t, ms = some t → t ≤ maxDateMs) :
    Fine (toIsoOpt ms) := by
  cases ms with
  | none => exact .ok _
  | some t =>
    show Fine ((toIso t).map some)
    unfold toIso
    rw [if_pos (h t rfl)]
    exact .ok _

theorem JobRecordV2.Closed.createdAt {job : JobRecordV2} (J : job.Closed) :
    job.createdAtMs ≤ maxDateMs := by
  have fields := ((JobRecordV2.accepted_iff job).1 J.accepted).1
  simp only [jobFieldGuards, Guard.all_cons, Bool.and_eq_true] at fields
  have order := of_decide_eq_true fields.2.2.2.2.2.2.2.2.2.2.2.2.2.2.2.1.1
  have deadline := J.deadline
  omega

theorem hostSummary_fine (control : Control) {job : JobRecordV2} (J : job.Closed)
    (att : Option AttemptRecordV1) (state : HostJobState) : Fine (hostSummary control job att state) := by
  unfold hostSummary
  refine .bind ?_ fun _ _ => .bind ?_ fun _ _ => .bind (toIso_fine J.createdAt) fun _ _ => .pure _
  · unfold resolveHostJobTargetAlias
    split
    · exact .ok _
    · exact .ite (fun _ => .error rfl) fun _ => .ok _
  · refine toIsoOpt_fine fun t h => ?_
    split_ifs at h
    cases h
    exact J.deadline

theorem hostDetail_fine (control : Control) {job : JobRecordV2} (J : job.Closed)
    {att : Option AttemptRecordV1} (A : ∀ a, att = some a → ∃ clock, a.Closed clock)
    (state : HostJobState) (includeTask : Bool) :
    Fine (hostDetail control job att state includeTask) := by
  unfold hostDetail
  refine .bind (hostSummary_fine control J att state) fun _ _ => ?_
  cases att with
  | none => exact .bind (.ok _) fun _ _ => .bind (.ok _) fun _ _ => .bind (.ok _) fun _ _ => .pure _
  | some a =>
    obtain ⟨clock, C⟩ := A a rfl
    refine .bind ?_ fun _ _ => .bind ?_ fun _ _ => .bind ?_ fun _ _ => .pure _
    · refine .bind (toIso_fine C.claimed) fun _ _ => .bind (toIsoOpt_fine fun t h => ?_) fun _ _ => .pure _
      exact C.started t (Option.eq_some_of_filter_eq_some h)
    · cases hr : a.report with
      | none =>
        simp only [Option.bind_some, hr]
        exact .ok _
      | some rep =>
        obtain ⟨finished, received⟩ := C.report rep hr
        simp only [Option.bind_some, hr]
        exact .bind (toIso_fine finished) fun _ _ => .bind (toIso_fine received) fun _ _ => .pure _
    · cases hr : a.result with
      | none =>
        simp only [Option.bind_some, hr]
        exact .ok _
      | some res =>
        simp only [Option.bind_some, hr]
        exact .bind (toIso_fine (C.result res hr)) fun _ _ => .pure _

/-! ### the readers -/

theorem assertHostWorkspaceAccess_fine (control : Control) (scope : Scope) :
    Fine (assertHostWorkspaceAccess control scope) := by
  intro e h
  obtain ⟨m, rfl⟩ := assertHostWorkspaceAccess_error h
  rfl

theorem getJobForHost_fine (control : Control) (scope : Scope) (jobId : String) (includeTask : Bool)
    (nowMs : Nat) {atJob atAttempt : Redis} (R : Readable atJob) (R' : Readable atAttempt) :
    Fine (getJobForHost control scope jobId includeTask nowMs atJob atAttempt) := by
  rw [getJobForHost_eq]
  refine .bind (assertHostWorkspaceAccess_fine control scope) fun _ _ => .ite (fun _ => .error rfl)
    fun _ => ?_
  rw [R.getJob_ok]
  cases hj : atJob.jobs jobId with
  | none => exact .error rfl
  | some job =>
    refine .ite (fun _ => .error rfl) fun _ => ?_
    obtain ⟨fine, closed⟩ := R'.hostAttempt_fine job
    refine .bind fine fun att ha => .bind (derive_fine job att nowMs) fun state _ => ?_
    exact hostDetail_fine control (R.job _ _ hj) (fun a h => closed a (h ▸ ha)) state includeTask

theorem listedRow_fine (control : Control) (query : ListJobsQuery) (nowMs : Nat)
    (row : JobStreamEntryV2) {atJob atAttempt : Redis} (R : Readable atJob) (R' : Readable atAttempt) :
    Fine (listedRow control query nowMs row atJob atAttempt) := by
  have jobFine : Fine (listedJob row atJob) ∧
      ∀ job, listedJob row atJob = .ok job → job.Closed := by
    unfold listedJob
    rw [R.getJob_ok]
    cases hj : atJob.jobs row.jobId with
    | none => exact ⟨.error rfl, fun job h => by cases h⟩
    | some job =>
      simp only [Bind.bind, Except.bind]
      refine ⟨.ite (fun _ => .error rfl) fun _ => .pure _, fun job' h => ?_⟩
      split_ifs at h
      cases h
      exact R.job _ _ hj
  refine .bind jobFine.1 fun job hjob => .ite (fun _ => .pure _) fun _ => ?_
  refine .bind (R'.hostAttempt_fine job).1 fun att _ => .bind (derive_fine job att nowMs) fun state _ => ?_
  refine .ite (fun _ => ?_) fun _ => .pure _
  exact .bind (hostSummary_fine control (jobFine.2 job hjob) att state) fun _ _ => .pure _

section page

variable (control : Control) (scope : Scope) (query : ListJobsQuery) (nowMs limit : Nat)
  {stores : Nat → Redis} (R : ∀ k, Readable (stores k))
include R

theorem scanRow_fine (row : StreamId × JobStreamEntryV2) (s : Scan) :
    Fine (scanRow control scope query nowMs limit stores row s) := by
  unfold scanRow
  refine .ite (fun _ => .error rfl) fun _ => .ite (fun _ => .pure _) fun _ => ?_
  cases Guard.run (streamEntryGuards row.2) with
  | error m => exact .error rfl
  | ok u =>
    refine .bind (listedRow_fine control query nowMs row.2 (R _) (R _)) fun found _ => ?_
    cases found with
    | none => exact .pure _
    | some summary => exact .ite (fun _ => .pure _) fun _ => .pure _

theorem scanRows_fine (rows : List (StreamId × JobStreamEntryV2)) (s : Scan) :
    Fine (scanRows control scope query nowMs limit stores rows s) := by
  induction rows generalizing s with
  | nil => exact .pure _
  | cons row rows ih =>
    unfold scanRows
    exact .bind (scanRow_fine control scope query nowMs limit R row s) fun found _ =>
      .ite (fun _ => .pure _) fun _ => ih found.1

theorem scanBatches_fine (fuel : Nat) (s : Scan) :
    Fine (scanBatches control scope query nowMs limit stores fuel s) := by
  induction fuel generalizing s with
  | zero => exact .pure _
  | succ fuel ih =>
    unfold scanBatches
    refine .ite (fun _ => .ite (fun _ => .pure _) fun _ => ?_) fun _ => .pure _
    exact .bind (scanRows_fine control scope query nowMs limit R _ _) fun s' _ =>
      .ite (fun _ => .pure _) fun _ => ih s'

theorem listJobsForHost_fine : Fine (listJobsForHost control scope query nowMs stores) := by
  unfold listJobsForHost
  refine .bind (assertHostWorkspaceAccess_fine control scope) fun _ _ => .bind ?_ fun _ _ => ?_
  · unfold listTargetAllowed
    split
    · exact .ok _
    · refine .ite (fun _ => .error rfl) fun _ => ?_
      split
      · exact .ite (fun _ => .error rfl) fun _ => .ok _
      · exact .ok _
  · exact .bind (scanBatches_fine control scope query nowMs _ R _ _) fun _ _ => .pure _

theorem pendingLoop_fine (candidates : List Candidate) (k : Nat) (results : List PendingJobSummary) :
    Fine (pendingLoop nowMs limit stores candidates k results) := by
  induction candidates generalizing k results with
  | nil => exact .pure _
  | cons c cs ih =>
    unfold pendingLoop
    refine .ite (fun _ => .pure _) fun _ => .bind ?_ fun found _ => ?_
    · unfold pendingJob
      rw [(R k).getJob_ok]
      cases hj : (stores k).jobs c.jobId with
      | none => exact .pure _
      | some job =>
        have J := (R k).job _ _ hj
        refine .ite (fun _ => .pure _) fun _ => .ite (fun _ => .pure _) fun _ =>
          .ite (fun _ => .pure _) fun _ => .bind (toIso_fine J.createdAt) fun _ _ => .bind ?_ fun _ _ =>
            .pure _
        refine toIsoOpt_fine fun t h => ?_
        split_ifs at h
        cases h
        exact J.deadline
    · cases found with
      | none => exact ih _ _
      | some job => exact ih _ _

theorem getPendingJobs_fine (deviceId : String) (bound : Int) :
    Fine (getPendingJobs control deviceId bound nowMs stores) := by
  unfold getPendingJobs
  exact pendingLoop_fine _ _ R _ _ _

end page

theorem cancelJob_fine (now : Nat) (p : CancelParams) (r : Redis) : Fine (cancelJob now p r).1 := by
  unfold cancelJob
  rcases cancelScript now p r with ⟨e | o, r'⟩
  · exact .error (by cases e <;> rfl)
  · exact .ok _

theorem cancelPreRead_fine (control : Control) (deviceId jobId : String) (nowMs : Nat)
    {atJob atAttempt : Redis} (R : Readable atJob) (R' : Readable atAttempt) :
    Fine (cancelPreRead control deviceId jobId nowMs atJob atAttempt) := by
  cases hj : atJob.jobs jobId with
  | none =>
    unfold cancelPreRead
    rw [getJob_of_none hj]
    exact .error rfl
  | some job =>
    by_cases bound : (control.boundTargets deviceId).contains job.targetId = true
    · rw [cancelPreRead_of_job ⟨hj, (R.job _ _ hj).accepted, bound⟩]
      refine .bind ?_ fun att _ => .bind (derive_fine job att nowMs) fun _ _ => .pure _
      unfold attemptOf
      cases job.latestAttemptId with
      | none => exact .ok _
      | some aid =>
        dsimp only
        rw [R'.getAttempt_ok]
        exact .ok _
    · unfold cancelPreRead
      rw [R.getJob_ok, hj]
      simp only [Bind.bind, Except.bind, assertDeviceTargetAccess, if_neg bound]
      exact .error rfl

theorem cancelJobForDevice_fine (control : Control) (sha256 : String → String)
    (deviceId userId jobId : String) {reads : Nat → CancelReads}
    (R : ∀ k, Readable (reads k).atJob ∧ Readable (reads k).atAttempt) :
    Fine (cancelJobForDevice control sha256 deviceId userId jobId reads) := by
  have round (x : CancelReads) (hx : Readable x.atJob ∧ Readable x.atAttempt)
      (answer : Except V2Error JobCancelResult)
      (h : (cancelRound control sha256 deviceId userId jobId x).1 = some answer) : Fine answer := by
    have pre := cancelPreRead_fine control deviceId jobId x.nowMs hx.1 hx.2
    unfold cancelRound at h
    cases hp : cancelPreRead control deviceId jobId x.nowMs x.atJob x.atAttempt with
    | error e =>
      simp only [hp, Option.some.injEq] at h
      rw [← h]
      exact .error (pre e hp)
    | ok read =>
      obtain ⟨job, att, state⟩ := read
      simp only [hp] at h
      by_cases hs : state = .terminal
      · rw [if_pos hs] at h
        exact Option.some.inj h ▸ .ok _
      rw [if_neg hs] at h
      have script := cancelJob_fine x.scriptTime (cancelParams sha256 deviceId userId job) x.atScript
      rcases hc : cancelJob x.scriptTime (cancelParams sha256 deviceId userId job) x.atScript with
        ⟨e | o, r⟩
      · rw [hc] at h script
        have fine : e.isUnreadable = false := script e rfl
        split at h
        · cases h
        · rename_i he
          cases he
          exact Option.some.inj h ▸ .error fine
        · rename_i he
          cases he
      · rw [hc] at h
        exact Option.some.inj h ▸ .ok _
  have rounds (n k : Nat) :
      Fine (cancelRounds control sha256 deviceId userId jobId reads n k) := by
    induction n generalizing k with
    | zero => exact .error rfl
    | succ n ih =>
      unfold cancelRounds
      cases h : (cancelRound control sha256 deviceId userId jobId (reads k)).1 with
      | none => exact ih (k + 1)
      | some answer => exact round _ (R k) answer h
  unfold cancelJobForDevice
  exact .ite (fun _ => .error rfl) fun _ => rounds _ _

theorem closing_claimed : closing.Reachable ⟨replay claimedCalls, 2000⟩ := by
  have passed := claimedCalls_passed
  refine ⟨⟨Redis.empty, 0⟩, claimedCalls, rfl,
    .cons ⟨⟨passed _ (by simp [claimedCalls]), ?_⟩, by decide, rfl⟩
      (.cons ⟨⟨passed _ (by simp [claimedCalls]), ?_⟩, by decide, rfl⟩ (.nil _))⟩
  · exact shows_of_le (by decide)
  · exact shows_of_le (by decide)

def resourceJob : JobRecordV2 :=
  { sampleJob with
    resourceId := some "res-00000000-0000-4000-8000-000000000006", resultTarget := .resource }

def sampleResult : PersistedJobResult :=
  { target := .resource
    attemptId := sampleClaim.attemptId
    payloadSha256 := "4444444444444444444444444444444444444444444444444444444444444444"
    resourceId := "res-00000000-0000-4000-8000-000000000006"
    commit := "5555555555555555555555555555555555555555"
    receivedAtMs := 3000 }

def resultCalls : List (Nat × Call) :=
  [(1000, .create resourceJob resourceJob.requestId), (2000, .claim sampleClaim),
   (3000, .recordResult sampleOwner sampleResult .automatic)]

end Ceo.Jobs
