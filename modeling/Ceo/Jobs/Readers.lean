import Ceo.Jobs.Lifecycle
import Ceo.Jobs.Service

/-!
# Readers under concurrency

A reader gets the job record and the record of its attempt with two commands.
Whatever the scripts do in between, the pair it sees is either consistent or
torn: an active job next to the attempt that has meanwhile ended. A torn pair
fails the derivation of the state, and with it the call.
-/

namespace Ceo.Jobs

open Ceo.Lib Function

/-! ### binds that succeed -/

theorem bind_eq_ok {ε α β : Type} {x : Except ε α} {f : α → Except ε β} {b : β} :
    (x >>= f) = .ok b ↔ ∃ a, x = .ok a ∧ f a = .ok b := by
  cases x <;> simp [bind, Except.bind]

theorem bind_eq_error {ε α β : Type} {x : Except ε α} {f : α → Except ε β} {e : ε} :
    (x >>= f) = .error e ↔ x = .error e ∨ ∃ a, x = .ok a ∧ f a = .error e := by
  cases x <;> simp [bind, Except.bind]

theorem getJob_of_some {r : Redis} {id : String} {job : JobRecordV2} (h : r.jobs id = some job) :
    getJob r id = .ok (some job) ∧ job.Accepted ∨
      (∃ m, getJob r id = .error (.schema m)) ∧ ¬job.Accepted := by
  unfold getJob
  rcases parseJobRecordV2_cases job with ⟨hp, ha⟩ | ⟨m, hp, ha⟩
  · exact .inl ⟨by simp [h, hp, schemaError, Except.map], ha⟩
  · exact .inr ⟨⟨m, by simp [h, hp, schemaError, Except.map]⟩, ha⟩

theorem getAttempt_of_some {r : Redis} {id : String} {att : AttemptRecordV1}
    (h : r.attempts id = some att) :
    getAttempt r id = .ok (some att) ∧ att.Accepted ∨
      (∃ m, getAttempt r id = .error (.schema m)) ∧ ¬att.Accepted := by
  unfold getAttempt
  rcases parseAttemptRecordV1_cases att with ⟨hp, ha⟩ | ⟨m, hp, ha⟩
  · exact .inl ⟨by simp [h, hp, schemaError, Except.map], ha⟩
  · exact .inr ⟨⟨m, by simp [h, hp, schemaError, Except.map]⟩, ha⟩

theorem getJob_of_none {r : Redis} {id : String} (h : r.jobs id = none) :
    getJob r id = .ok none := by simp [getJob, h]

/-- What `getJob` finds is the stored record. -/
theorem getJob_stored {r : Redis} {id : String} {o : Option JobRecordV2}
    (h : getJob r id = .ok o) : r.jobs id = o := by
  cases hj : r.jobs id with
  | none =>
    rw [getJob_of_none hj] at h
    cases h
    rfl
  | some job =>
    rcases getJob_of_some hj with ⟨hok, -⟩ | ⟨⟨m, hm⟩, -⟩
    · rw [hok] at h
      cases h
      rfl
    · rw [hm] at h
      cases h

theorem getAttempt_stored {r : Redis} {id : String} {att : AttemptRecordV1}
    (h : getAttempt r id = .ok (some att)) : r.attempts id = some att := by
  cases ha : r.attempts id with
  | none => simp [getAttempt, ha] at h
  | some att' =>
    rcases getAttempt_of_some ha with ⟨hok, -⟩ | ⟨⟨m, hm⟩, -⟩
    · rw [hok] at h
      cases h
      rfl
    · rw [hm] at h
      cases h

theorem derive_terminal {job : JobRecordV2} {att : Option AttemptRecordV1} {nowMs : Nat}
    {state : HostJobState} (h : deriveHostJobState job att nowMs = .ok state) :
    state = .terminal ↔ job.status = .terminal := by
  unfold deriveHostJobState at h
  cases hs : job.status with
  | preparing => simp [hs] at h
  | queued =>
    simp only [hs] at h
    split_ifs at h <;> cases h <;> simp
  | active =>
    simp only [hs] at h
    cases att with
    | none => cases h
    | some att => cases hp : att.phase <;> simp only [hp] at h <;> cases h <;> simp
  | terminal =>
    simp only [hs] at h
    cases att with
    | none =>
      split_ifs at h
      cases h
      simp
    | some att => cases hp : att.phase <;> simp only [hp] at h <;> cases h; simp

/-! ### the pair of reads -/

/-- The state a job has in a store, at a reading of the service clock. -/
def StateAt (r : Redis) (jobId : String) (nowMs : Nat) (state : HostJobState) : Prop :=
  ∃ job, r.jobs jobId = some job ∧ deriveHostJobState job (latestAttempt r job) nowMs = .ok state

/-- The job is read active, and its attempt, read next, has ended. -/
def TornRead (job : JobRecordV2) (atAttempt : Redis) : Prop :=
  job.status = .active ∧ ∃ aid att, job.latestAttemptId = some aid ∧
    atAttempt.attempts aid = some att ∧ att.Accepted ∧ att.phase = .terminal

/-- The attempt of a job, as `cancelJobForDevice` reads it. -/
def attemptOf (job : JobRecordV2) (r : Redis) : Except V2Error (Option AttemptRecordV1) :=
  match job.latestAttemptId with
  | none => .ok none
  | some attemptId => getAttempt r attemptId

section reads

variable {atJob atAttempt : Redis} {l : List (Nat × Call)}

/-- A job keeps its key and its ids. -/
def KeepsIds (r r' : Redis) : Prop :=
  ∀ id job, r.jobs id = some job → ∃ job', r'.jobs id = some job' ∧ job'.userId = job.userId ∧
    job'.workspaceId = job.workspaceId ∧ job'.targetId = job.targetId

theorem KeepsIds.rewrite {r r' : Redis} {k : String} {job job' : JobRecordV2}
    (hj : r.jobs k = some job) (jobs : r'.jobs = update r.jobs k (some job'))
    (user : job'.userId = job.userId) (workspace : job'.workspaceId = job.workspaceId)
    (target : job'.targetId = job.targetId) : KeepsIds r r' := by
  intro id j h
  by_cases hid : id = k
  · subst hid
    rw [hj] at h
    obtain rfl := Option.some.inj h
    exact ⟨job', by simp [jobs], user, workspace, target⟩
  · exact ⟨j, by rw [jobs, update_of_ne hid, h], rfl, rfl, rfl⟩

theorem keepsIds_of_effect {r r' : Redis} {now : Nat} {c : Call} (e : Effect now r r' c) :
    KeepsIds r r' := by
  cases e with
  | frame jobs | started _ _ _ _ _ _ jobs | recorded _ _ _ jobs =>
    exact fun id job h => ⟨job, jobs ▸ h, rfl, rfl, rfl⟩
  | created entry accepted fresh jobs =>
    intro id j h
    refine ⟨j, ?_, rfl, rfl, rfl⟩
    rw [jobs, update_of_ne, h]
    rintro rfl
    simp [fresh] at h
  | claimed job job_at jobId workspace target isNew queued live free unfenced jobs =>
    exact .rewrite job_at jobs rfl rfl rfl
  | reported job att owns attemptId active phase jobs =>
    exact .rewrite owns.job_at jobs rfl rfl rfl
  | cancelledActive job att job_at active attempt_at expected jobId latest phase jobs =>
    exact .rewrite job_at jobs rfl rfl rfl
  | cancelledQueued job job_at queued jobs =>
    exact .rewrite job_at jobs rfl rfl rfl

theorem keepsIds_run {r r' : Redis} {l : List (Nat × Call)} (h : scripts.Run r l r') :
    KeepsIds r r' := by
  refine h.rel (I := fun _ => True) (R := KeepsIds)
    (fun _ id job h => ⟨job, h, rfl, rfl, rfl⟩) ?_ (fun _ _ => trivial) ?_ trivial
  · intro a b c h1 h2 id job h
    obtain ⟨j1, hj1, hu1, hw1, ht1⟩ := h1 id job h
    obtain ⟨j2, hj2, hu2, hw2, ht2⟩ := h2 id j1 hj1
    exact ⟨j2, hj2, by rw [hu2, hu1], by rw [hw2, hw1], by rw [ht2, ht1]⟩
  · intro s a t _ hs
    obtain rfl : t = exec a.1 s a.2 := hs
    exact keepsIds_of_effect (exec_effect _ _ _)

/-- Behind a job that names an attempt stands that attempt, with the job's ids, at any later time. -/
theorem attempt_behind (L : Linkage atJob) (run : scripts.Run atJob l atAttempt) {id aid : String}
    {job : JobRecordV2} (hj : atJob.jobs id = some job) (hl : job.latestAttemptId = some aid) :
    ∃ att later, atAttempt.attempts aid = some att ∧ att.attemptId = aid ∧ SameIds att job ∧
      atAttempt.jobs id = some later ∧ Latest atAttempt later att := by
  have L' := L.run run
  obtain ⟨later, hlater, hlat⟩ := L.keepsLatest_run run id job aid hj hl
  obtain ⟨j', hj', hu, hw, ht⟩ := keepsIds_run run id job hj
  rw [hlater] at hj'
  obtain rfl := Option.some.inj hj'
  obtain ⟨att, rfl, hatt⟩ := L'.names hlater hlat
  refine ⟨att, later, hatt.stored, rfl, ⟨?_, ?_, ?_, ?_⟩, hlater, hatt⟩
  · rw [hatt.ids.jobId, L'.job_key hlater, L.job_key hj]
  · rw [hatt.ids.userId, hu]
  · rw [hatt.ids.workspaceId, hw]
  · rw [hatt.ids.targetId, ht]

/-- The linkage checks of the host readers never fail. -/
theorem hostAttempt_eq (L : Linkage atJob) (run : scripts.Run atJob l atAttempt) {id : String}
    {job : JobRecordV2} (hj : atJob.jobs id = some job) :
    hostAttempt job atAttempt = attemptOf job atAttempt := by
  unfold hostAttempt attemptOf
  cases hl : job.latestAttemptId with
  | none => rfl
  | some aid =>
    obtain ⟨att, later, hatt, -, ids, -⟩ := attempt_behind L run hj hl
    rcases getAttempt_of_some hatt with ⟨h, -⟩ | ⟨⟨m, h⟩, -⟩
    · simp [h, bind, Except.bind, ids.jobId, ids.workspaceId, ids.targetId, ids.userId, pure,
        Except.pure]
    · simp [h, bind, Except.bind]

theorem status_of_ended {r : Redis} {id : String} {job : JobRecordV2} {a : Option String}
    {s : ExecutionStatus} (hj : r.jobs id = some job) (h : stageOf r id = .ended a s) :
    job.status = .terminal := by
  rw [stageOf_some hj] at h
  unfold stage at h
  split at h <;> first | assumption | cases h | (split at h <;> cases h)

theorem derive_live {job : JobRecordV2} {att : AttemptRecordV1} (hs : job.status = .active)
    (hp : att.phase ≠ .terminal) (nowMs : Nat) :
    deriveHostJobState job (some att) nowMs =
      .ok (if att.phase = .claimed then .claimed else .running) := by
  unfold deriveHostJobState
  cases h : att.phase <;> simp_all

/-- **A pair of reads is torn or tells a state of the job**: of the store the
job was read from or of the one its attempt was read from. -/
theorem reads_spec (L : Linkage atJob) (run : scripts.Run atJob l atAttempt) {id : String}
    {job : JobRecordV2} (hj : atJob.jobs id = some job) (nowMs : Nat) :
    TornRead job atAttempt ∧ (∃ att, attemptOf job atAttempt = .ok att ∧
      deriveHostJobState job att nowMs = .error (.store .corruptJobState)) ∨
    ¬TornRead job atAttempt ∧ ((∃ m, attemptOf job atAttempt = .error (.schema m)) ∨
      ∃ att state, attemptOf job atAttempt = .ok att ∧
        deriveHostJobState job att nowMs = .ok state ∧
        (StateAt atJob id nowMs state ∨ StateAt atAttempt id nowMs state)) := by
  have L' := L.run run
  unfold attemptOf
  cases hl : job.latestAttemptId with
  | none =>
    right
    have htorn : ¬TornRead job atAttempt := by
      rintro ⟨-, aid, -, h, -⟩
      simp [hl] at h
    refine ⟨htorn, .inr ?_⟩
    obtain ⟨state, hstate⟩ := L.derive_ok hj nowMs
    have hnone : latestAttempt atJob job = none := by simp [latestAttempt, hl]
    exact ⟨none, state, rfl, hnone ▸ hstate, .inl ⟨job, hj, hstate⟩⟩
  | some aid =>
    obtain ⟨att, later, hatt, -, ids, hlater, hlat⟩ := attempt_behind L run hj hl
    dsimp only
    rcases getAttempt_of_some hatt with ⟨h, hacc⟩ | ⟨⟨m, h⟩, hrej⟩
    swap
    · right
      refine ⟨?_, .inl ⟨m, h⟩⟩
      rintro ⟨-, b, att', hb, hatt', hacc, -⟩
      rw [hl, Option.some.injEq] at hb
      rw [← hb, hatt, Option.some.injEq] at hatt'
      exact hrej (hatt' ▸ hacc)
    · have link := L.linked hj
      cases hs : job.status with
      | preparing => simp [Linked, hs] at link
      | queued => simp [Linked, hs, hl] at link
      | active =>
        by_cases hp : att.phase = .terminal
        · left
          refine ⟨⟨hs, aid, att, hl, hatt, hacc, hp⟩, some att, h, ?_⟩
          simp [deriveHostJobState, hs, hp]
        · right
          refine ⟨?_, .inr ⟨some att, _, h, derive_live hs hp nowMs, .inr ⟨later, hlater, ?_⟩⟩⟩
          · rintro ⟨-, b, att', hb, hatt', -, hp'⟩
            rw [hl, Option.some.injEq] at hb
            rw [← hb, hatt, Option.some.injEq] at hatt'
            exact hp (hatt' ▸ hp')
          · have still : later.status = .active := by
              have link' := L'.linked hlater
              cases hs' : later.status with
              | active => rfl
              | preparing => simp [Linked, hs'] at link'
              | queued => simp [Linked, hs', hlat.latest] at link'
              | terminal => exact absurd (L'.terminal_phase hlater hs' hlat) hp
            rw [hlat.latestAttempt]
            exact derive_live still hp nowMs
      | terminal =>
        right
        have htorn : ¬TornRead job atAttempt := by
          rintro ⟨hact, -⟩
          simp [hs] at hact
        refine ⟨htorn, .inr ⟨some att, .terminal, h, ?_, .inl ?_⟩⟩
        · -- an ended job stays ended, so its attempt is still the terminal one
          have hend := later_run L run id
          rw [stageOf_some hj, stage_terminal hs] at hend
          have hp := L'.terminal_phase hlater (status_of_ended hlater hend.of_ended) hlat
          simp [deriveHostJobState, hs, hp]
        · obtain ⟨before, hb, hbl⟩ := L.names hj hl
          refine ⟨job, hj, ?_⟩
          rw [hbl.latestAttempt]
          simp [deriveHostJobState, hs, L.terminal_phase hj hs hbl]

end reads

/-! ### what else a reader can fail with -/

/-- The codes of an inconsistent pair of records. -/
def V2Error.isTorn : V2Error → Bool
  | .store .corruptJobState | .store .corruptAttemptLinkage => true
  | _ => false

theorem assertHostWorkspaceAccess_error {control : Control} {scope : Scope} {e : V2Error}
    (h : assertHostWorkspaceAccess control scope = .error e) :
    ∃ m, e = .workspaceAccessDenied m := by
  unfold assertHostWorkspaceAccess at h
  split_ifs at h <;> exact ⟨_, (Except.error.inj h).symm⟩

theorem toIso_error {ms : Nat} {e : V2Error} (h : toIso ms = .error e) : e = .invalidTimeValue := by
  unfold toIso at h
  split_ifs at h
  exact (Except.error.inj h).symm

theorem toIsoOpt_error {ms : Option Nat} {e : V2Error} (h : toIsoOpt ms = .error e) :
    e = .invalidTimeValue := by
  cases ms with
  | none => cases h
  | some ms =>
    unfold toIsoOpt at h
    cases hi : toIso ms with
    | error e' =>
      simp only [hi, Except.map, Except.error.injEq] at h
      exact h ▸ toIso_error hi
    | ok n => simp [hi, Except.map] at h

theorem hostSummary_error {control : Control} {job : JobRecordV2} {att : Option AttemptRecordV1}
    {state : HostJobState} {e : V2Error} (h : hostSummary control job att state = .error e) :
    e = .store .corruptTargetState ∨ e = .invalidTimeValue := by
  unfold hostSummary at h
  rcases bind_eq_error.1 h with h | ⟨alias', -, h⟩
  · left
    unfold resolveHostJobTargetAlias at h
    split at h
    · cases h
    · split_ifs at h
      exact (Except.error.inj h).symm
  · right
    rcases bind_eq_error.1 h with h | ⟨_, -, h⟩
    · exact toIsoOpt_error h
    · rcases bind_eq_error.1 h with h | ⟨_, -, h⟩
      · exact toIso_error h
      · cases h

theorem hostSummary_state {control : Control} {job : JobRecordV2} {att : Option AttemptRecordV1}
    {state : HostJobState} {summary : HostJobSummary}
    (h : hostSummary control job att state = .ok summary) :
    summary.state = state ∧ summary.jobId = job.jobId := by
  unfold hostSummary at h
  obtain ⟨_, -, h⟩ := bind_eq_ok.1 h
  obtain ⟨_, -, h⟩ := bind_eq_ok.1 h
  obtain ⟨_, -, h⟩ := bind_eq_ok.1 h
  cases h
  exact ⟨rfl, rfl⟩

theorem executionView_error {att : Option AttemptRecordV1} {e : V2Error}
    (h : executionView att = .error e) : e = .invalidTimeValue := by
  cases att with
  | none => cases h
  | some att =>
    rcases bind_eq_error.1 h with h | ⟨_, -, h⟩
    · exact toIso_error h
    · rcases bind_eq_error.1 h with h | ⟨_, -, h⟩
      · exact toIsoOpt_error h
      · cases h

theorem reportView_error {report : Option PersistedExecutionReport} {e : V2Error}
    (h : reportView report = .error e) : e = .invalidTimeValue := by
  cases report with
  | none => cases h
  | some report =>
    rcases bind_eq_error.1 h with h | ⟨_, -, h⟩
    · exact toIso_error h
    · rcases bind_eq_error.1 h with h | ⟨_, -, h⟩
      · exact toIso_error h
      · cases h

theorem resultView_error {result : Option PersistedJobResult} {e : V2Error}
    (h : resultView result = .error e) : e = .invalidTimeValue := by
  cases result with
  | none => cases h
  | some result =>
    rcases bind_eq_error.1 h with h | ⟨_, -, h⟩
    · exact toIso_error h
    · cases h

/-! ### getJobForHost -/

/-- The part of a detail view that comes after the pair of reads. -/
def hostDetail (control : Control) (job : JobRecordV2) (attempt : Option AttemptRecordV1)
    (state : HostJobState) (includeTask : Bool) : Except V2Error HostJobDetail := do
  let summary ← hostSummary control job attempt state
  let execution ← executionView attempt
  let report ← reportView (attempt.bind (·.report))
  let result ← resultView (attempt.bind (·.result))
  return {
    toHostJobSummary := summary
    executionTimeoutSeconds := job.executionTimeoutSeconds
    execution := execution
    report := report
    result := result
    task := if includeTask then
      some ⟨job.prompt, job.acceptance, job.executionTimeoutSeconds⟩ else none }

theorem hostDetail_error {control : Control} {job : JobRecordV2} {att : Option AttemptRecordV1}
    {state : HostJobState} {includeTask : Bool} {e : V2Error}
    (h : hostDetail control job att state includeTask = .error e) :
    e = .store .corruptTargetState ∨ e = .invalidTimeValue := by
  rcases bind_eq_error.1 h with h | ⟨_, -, h⟩
  · exact hostSummary_error h
  rcases bind_eq_error.1 h with h | ⟨_, -, h⟩
  · exact .inr (executionView_error h)
  rcases bind_eq_error.1 h with h | ⟨_, -, h⟩
  · exact .inr (reportView_error h)
  rcases bind_eq_error.1 h with h | ⟨_, -, h⟩
  · exact .inr (resultView_error h)
  · cases h

theorem hostDetail_state {control : Control} {job : JobRecordV2} {att : Option AttemptRecordV1}
    {state : HostJobState} {includeTask : Bool} {d : HostJobDetail}
    (h : hostDetail control job att state includeTask = .ok d) : d.state = state := by
  obtain ⟨summary, hs, h⟩ := bind_eq_ok.1 h
  obtain ⟨_, -, h⟩ := bind_eq_ok.1 h
  obtain ⟨_, -, h⟩ := bind_eq_ok.1 h
  obtain ⟨_, -, h⟩ := bind_eq_ok.1 h
  cases h
  exact (hostSummary_state hs).1

theorem getJobForHost_eq (control : Control) (scope : Scope) (jobId : String) (includeTask : Bool)
    (nowMs : Nat) (atJob atAttempt : Redis) :
    getJobForHost control scope jobId includeTask nowMs atJob atAttempt = (do
      assertHostWorkspaceAccess control scope
      if !jobIdV2Re jobId then .error (.validation "Invalid job_id format.")
      else
        match ← getJob atJob jobId with
        | none => .error .jobNotFound
        | some job =>
          if job.workspaceId ≠ scope.workspaceId then .error .jobNotFound
          else
            let attempt ← hostAttempt job atAttempt
            let state ← deriveHostJobState job attempt nowMs
            hostDetail control job attempt state includeTask) := rfl

/-- The call gets as far as deriving a state from this job record. -/
structure HostReads (control : Control) (scope : Scope) (jobId : String) (atJob : Redis)
    (job : JobRecordV2) : Prop where
  access : assertHostWorkspaceAccess control scope = .ok ()
  format : jobIdV2Re jobId = true
  stored : atJob.jobs jobId = some job
  accepted : job.Accepted
  workspace : job.workspaceId = scope.workspaceId

/-- A reader's answer is consistent: it does not fail with a code of an
inconsistent pair, and a state it shows is one the job has at a read. -/
def Consistent {α : Type} (answer : Except V2Error α) (shows : α → HostJobState → Prop)
    (jobId : String) (nowMs : Nat) (atJob atAttempt : Redis) : Prop :=
  (∀ e, answer = .error e → e.isTorn = false) ∧
  ∀ a state, answer = .ok a → shows a state →
    StateAt atJob jobId nowMs state ∨ StateAt atAttempt jobId nowMs state

theorem Consistent.of_error {α : Type} {shows : α → HostJobState → Prop} {jobId : String}
    {nowMs : Nat} {atJob atAttempt : Redis} {e : V2Error} (h : e.isTorn = false) :
    Consistent (.error e) shows jobId nowMs atJob atAttempt :=
  ⟨fun _ he => Except.error.inj he ▸ h, fun _ _ hok => by cases hok⟩

theorem Consistent.not_torn {α : Type} {shows : α → HostJobState → Prop} {jobId : String}
    {nowMs : Nat} {atJob atAttempt : Redis} {e : V2Error} (h : e.isTorn = true) :
    ¬Consistent (.error e) shows jobId nowMs atJob atAttempt := by
  intro hc
  have := hc.1 e rfl
  simp [h] at this

theorem getJobForHost_consistent_iff {atJob atAttempt : Redis} {l : List (Nat × Call)}
    (L : Linkage atJob) (run : scripts.Run atJob l atAttempt) (control : Control) (scope : Scope)
    (jobId : String) (includeTask : Bool) (nowMs : Nat) :
    Consistent (getJobForHost control scope jobId includeTask nowMs atJob atAttempt)
        (fun d state => d.state = state) jobId nowMs atJob atAttempt ↔
      ¬∃ job, HostReads control scope jobId atJob job ∧ TornRead job atAttempt := by
  rw [getJobForHost_eq]
  cases hacc : assertHostWorkspaceAccess control scope with
  | error e =>
    obtain ⟨m, rfl⟩ := assertHostWorkspaceAccess_error hacc
    exact ⟨fun _ ⟨_, h, _⟩ => by simp [h.access] at hacc, fun _ => .of_error rfl⟩
  | ok u =>
    by_cases hre : jobIdV2Re jobId = true
    swap
    · simp only [bind, Except.bind, hre]
      exact ⟨fun _ ⟨_, h, _⟩ => hre h.format, fun _ => .of_error rfl⟩
    simp only [bind, Except.bind, hre, Bool.not_true, Bool.false_eq_true, if_false]
    cases hj : atJob.jobs jobId with
    | none =>
      rw [getJob_of_none hj]
      exact ⟨fun _ ⟨_, h, _⟩ => by simp [h.stored] at hj, fun _ => .of_error rfl⟩
    | some job =>
      have same {j : JobRecordV2} (hr : HostReads control scope jobId atJob j) : job = j := by
        have hst := hr.stored
        rwa [hj, Option.some.injEq] at hst
      rcases getJob_of_some hj with ⟨h, hok⟩ | ⟨⟨m, h⟩, hrej⟩
      swap
      · rw [h]
        exact ⟨fun _ ⟨j, hr, _⟩ => hrej (same hr ▸ hr.accepted), fun _ => .of_error rfl⟩
      rw [h]
      dsimp only
      by_cases hws : job.workspaceId = scope.workspaceId
      swap
      · rw [if_pos hws]
        exact ⟨fun _ ⟨j, hr, _⟩ => hws (same hr ▸ hr.workspace), fun _ => .of_error rfl⟩
      rw [if_neg (not_not.2 hws), hostAttempt_eq L run hj]
      rcases reads_spec L run hj nowMs with ⟨torn, att, ha, hd⟩ | ⟨whole, hread⟩
      · -- torn: the derivation throws
        rw [ha]
        dsimp only
        rw [hd]
        exact ⟨fun hc => absurd hc (Consistent.not_torn rfl),
          fun hn => absurd ⟨job, ⟨hacc, hre, hj, hok, hws⟩, torn⟩ hn⟩
      · refine ⟨fun _ ⟨j, hr, ht⟩ => whole (same hr ▸ ht), fun _ => ?_⟩
        rcases hread with ⟨m, hm⟩ | ⟨att, state, ha, hd, hat⟩
        · rw [hm]
          exact .of_error rfl
        · rw [ha]
          dsimp only
          rw [hd]
          refine ⟨fun e he => ?_, ?_⟩
          · rcases hostDetail_error he with rfl | rfl <;> rfl
          · rintro d _ hd' rfl
            rw [hostDetail_state hd']
            exact hat

/-! ### the reads of cancelJobForDevice -/

/-- The round gets as far as deriving a state from this job record. -/
structure CancelReadsJob (control : Control) (deviceId jobId : String) (atJob : Redis)
    (job : JobRecordV2) : Prop where
  stored : atJob.jobs jobId = some job
  accepted : job.Accepted
  bound : (control.boundTargets deviceId).contains job.targetId = true

theorem cancelPreRead_of_job {control : Control} {deviceId jobId : String} {atJob : Redis}
    {job : JobRecordV2} (h : CancelReadsJob control deviceId jobId atJob job) (nowMs : Nat)
    (atAttempt : Redis) :
    cancelPreRead control deviceId jobId nowMs atJob atAttempt = (do
      let attempt ← attemptOf job atAttempt
      let previousState ← deriveHostJobState job attempt nowMs
      return (job, attempt, previousState)) := by
  have hg : getJob atJob jobId = .ok (some job) := by
    rcases getJob_of_some h.stored with ⟨hg, -⟩ | ⟨-, hrej⟩
    · exact hg
    · exact absurd h.accepted hrej
  unfold cancelPreRead
  rw [hg]
  simp only [bind, Except.bind, assertDeviceTargetAccess, h.bound, if_true, attemptOf]
  cases job.latestAttemptId <;> rfl

/-- What the reads come to when they do not get as far as a state. -/
theorem cancelPreRead_stops {control : Control} {deviceId jobId : String} {atJob : Redis}
    (h : ¬∃ job, CancelReadsJob control deviceId jobId atJob job) (nowMs : Nat)
    (atAttempt : Redis) :
    ∃ e, cancelPreRead control deviceId jobId nowMs atJob atAttempt = .error e ∧
      (e = .jobNotFound ∨ ∃ m, e = .schema m) := by
  unfold cancelPreRead
  cases hj : atJob.jobs jobId with
  | none => exact ⟨_, by rw [getJob_of_none hj]; rfl, .inl rfl⟩
  | some job =>
    rcases getJob_of_some hj with ⟨hg, hok⟩ | ⟨⟨m, hg⟩, -⟩
    · rw [hg]
      refine ⟨.jobNotFound, ?_, .inl rfl⟩
      have hb : ¬(control.boundTargets deviceId).contains job.targetId = true :=
        fun hb => h ⟨job, hj, hok, hb⟩
      simp only [bind, Except.bind, assertDeviceTargetAccess, if_neg hb]
    · exact ⟨_, by rw [hg]; rfl, .inr ⟨m, rfl⟩⟩

theorem cancelPreRead_consistent_iff {atJob atAttempt : Redis} {l : List (Nat × Call)}
    (L : Linkage atJob) (run : scripts.Run atJob l atAttempt) (control : Control)
    (deviceId jobId : String) (nowMs : Nat) :
    Consistent (cancelPreRead control deviceId jobId nowMs atJob atAttempt)
        (fun read state => read.2.2 = state) jobId nowMs atJob atAttempt ↔
      ¬∃ job, CancelReadsJob control deviceId jobId atJob job ∧ TornRead job atAttempt := by
  by_cases hr : ∃ job, CancelReadsJob control deviceId jobId atJob job
  swap
  · obtain ⟨e, he, hkind⟩ := cancelPreRead_stops hr nowMs atAttempt
    rw [he]
    refine ⟨fun _ ⟨j, hj, _⟩ => hr ⟨j, hj⟩, fun _ => .of_error ?_⟩
    rcases hkind with rfl | ⟨m, rfl⟩ <;> rfl
  obtain ⟨job, hjob⟩ := hr
  have same {j : JobRecordV2} (h : CancelReadsJob control deviceId jobId atJob j) : job = j := by
    have hst := h.stored
    rwa [hjob.stored, Option.some.injEq] at hst
  rw [cancelPreRead_of_job hjob]
  rcases reads_spec L run hjob.stored nowMs with ⟨torn, att, ha, hd⟩ | ⟨whole, hread⟩
  · simp only [ha, hd, bind, Except.bind]
    exact ⟨fun hc => absurd hc (Consistent.not_torn rfl), fun hn => absurd ⟨job, hjob, torn⟩ hn⟩
  · refine ⟨fun _ ⟨j, hj, ht⟩ => whole (same hj ▸ ht), fun _ => ?_⟩
    rcases hread with ⟨m, hm⟩ | ⟨att, state, ha, hd, hat⟩
    · rw [hm]
      exact .of_error rfl
    · simp only [ha, hd, bind, Except.bind, pure, Except.pure]
      refine ⟨fun e he => (by cases he), ?_⟩
      rintro _ _ ⟨⟩ rfl
      exact hat

end Ceo.Jobs
