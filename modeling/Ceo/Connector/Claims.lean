import Ceo.Connector.Daemon
import Ceo.Jobs.Immutable
import Ceo.Jobs.Readers

/-!
# No lost claim

The daemon lets go of a claim intent when the coordinator's answer says that
the job is gone for it. Every such answer but one is about the job, and stays
true: it has ended, another attempt has it, or its deadline has passed.
`JOB_NOT_FOUND` is about the device, which may be eligible again when another
copy of the request arrives; `Calm` leaves that case out.
-/

namespace Ceo.Connector

open Ceo.Lib Ceo.Jobs Function

/-! ### out of reach -/

/-- No claim of `attemptId` can take the job any more, and one that took it has ended. -/
def OutOfReach (r : Redis) (clock : Nat) (jobId attemptId : String) : Prop :=
  ∃ job, r.jobs jobId = some job ∧
    (job.status = .terminal ∨
      (∃ b, job.latestAttemptId = some b ∧ b ≠ attemptId) ∨
      (job.latestAttemptId = none ∧ 0 < job.claimDeadlineMs ∧ job.claimDeadlineMs ≤ clock))

section store

variable {r r' : Redis} {clock now : Nat} {jobId attemptId : String}

theorem OutOfReach.ended {job : JobRecordV2} (hj : r.jobs jobId = some job)
    (hs : job.status = .terminal) : OutOfReach r clock jobId attemptId :=
  ⟨job, hj, .inl hs⟩

/-- An attempt whose job is out of its reach has ended. -/
theorem OutOfReach.terminal (L : Linkage r) (h : OutOfReach r clock jobId attemptId)
    {att : AttemptRecordV1} (ha : r.attempts attemptId = some att) (hj : att.jobId = jobId) :
    att.phase = .terminal := by
  obtain ⟨job, hjob, hout⟩ := h
  obtain ⟨job', hj', hl⟩ := L.latest_of_owned ha
  rw [hj, hjob] at hj'
  obtain rfl := Option.some.inj hj'
  have hid : att.attemptId = attemptId := L.attempt_key ha
  rcases hout with hs | ⟨b, hb, hne⟩ | ⟨hn, -⟩
  · exact L.terminal_phase hjob hs hl
  · have := hl.latest
    rw [hb, hid] at this
    exact absurd (Option.some.inj this) hne
  · have := hl.latest
    rw [hn] at this
    cases this

/-- A job nobody has claimed and whose deadline has passed stays so. -/
theorem lapsed_step {c : Call} (e : Effect now r r' c) {job : JobRecordV2}
    (hj : r.jobs jobId = some job) (hn : job.latestAttemptId = none) (hd : 0 < job.claimDeadlineMs)
    (hle : job.claimDeadlineMs ≤ now) : ∃ job', r'.jobs jobId = some job' ∧
      (job'.status = .terminal ∨
        (job'.latestAttemptId = none ∧ job'.claimDeadlineMs = job.claimDeadlineMs)) := by
  have keep (jobs : r'.jobs = r.jobs) : ∃ job', r'.jobs jobId = some job' ∧
      (job'.status = .terminal ∨
        (job'.latestAttemptId = none ∧ job'.claimDeadlineMs = job.claimDeadlineMs)) :=
    ⟨job, by rw [jobs, hj], .inr ⟨hn, rfl⟩⟩
  have set {k : String} {new : JobRecordV2} (hs : k = jobId → new.status = .terminal)
      (jobs : r'.jobs = update r.jobs k (some new)) : ∃ job', r'.jobs jobId = some job' ∧
      (job'.status = .terminal ∨
        (job'.latestAttemptId = none ∧ job'.claimDeadlineMs = job.claimDeadlineMs)) := by
    by_cases hk : jobId = k
    · exact ⟨new, by rw [jobs, hk, update_self], .inl (hs hk.symm)⟩
    · exact ⟨job, by rw [jobs, update_of_ne hk, hj], .inr ⟨hn, rfl⟩⟩
  cases e with
  | frame jobs => exact keep jobs
  | started _ _ _ _ _ _ jobs => exact keep jobs
  | recorded _ _ _ jobs => exact keep jobs
  | created _ _ fresh jobs =>
    refine set (fun hk => ?_) jobs
    rw [hk, hj] at fresh
    cases fresh
  | claimed job' job_at _ _ _ _ _ live _ _ jobs =>
    refine set (fun hk => ?_) jobs
    rw [hk, hj] at job_at
    obtain rfl := Option.some.inj job_at
    omega
  | reported _ _ _ _ _ _ jobs => exact set (fun _ => by simp [reportedJob]) jobs
  | cancelledActive _ _ _ _ _ _ _ _ _ jobs => exact set (fun _ => by simp [cancelledJob]) jobs
  | cancelledQueued _ _ _ jobs => exact set (fun _ => by simp [cancelledJob]) jobs

/-- What is out of reach stays out of reach. -/
theorem OutOfReach.step (S : Sound r) {c : Call} (e : Effect now r r' c) (hle : clock ≤ now)
    (h : OutOfReach r clock jobId attemptId) : OutOfReach r' now jobId attemptId := by
  obtain ⟨job, hj, hs | ⟨b, hb, hne⟩ | ⟨hn, hd, hc⟩⟩ := h
  · exact .ended ((S.settled e) jobId job hj hs).1 hs
  · obtain ⟨job', hj', hl'⟩ := S.linkage.keepsLatest e jobId job b hj hb
    exact ⟨job', hj', .inr (.inl ⟨b, hl', hne⟩)⟩
  · obtain ⟨job', hj', ht | ⟨hn', hd'⟩⟩ := lapsed_step e hj hn hd (by omega)
    · exact .ended hj' ht
    · exact ⟨job', hj', .inr (.inr ⟨hn', by omega, by omega⟩)⟩

/-- The attempts of a device after a call that is no claim of its own are the ones before it. -/
theorem attempts_back {deviceId : String} {c : Call} (e : Effect now r r' c)
    (hc : ∀ p, c = .claim p → p.deviceId ≠ deviceId) {att' : AttemptRecordV1}
    (ha : r'.attempts attemptId = some att') (hd : att'.deviceId = deviceId) :
    ∃ att, r.attempts attemptId = some att ∧ att.deviceId = deviceId ∧ att.jobId = att'.jobId ∧
      att.claimTokenSha256 = att'.claimTokenSha256 ∧
      (att'.phase ≠ .terminal → att.phase ≠ .terminal) := by
  have keep (attempts : r'.attempts = r.attempts) : ∃ att, r.attempts attemptId = some att ∧
      att.deviceId = deviceId ∧ att.jobId = att'.jobId ∧
      att.claimTokenSha256 = att'.claimTokenSha256 ∧
      (att'.phase ≠ .terminal → att.phase ≠ .terminal) :=
    ⟨att', by rw [← attempts, ha], hd, rfl, rfl, id⟩
  have set {k : String} {old new : AttemptRecordV1}
      (attempts : r'.attempts = update r.attempts k (some (Cjson.encodeAttempt new)))
      (hk : r.attempts k = some old) (dev : new.deviceId = old.deviceId) (jid : new.jobId = old.jobId)
      (tok : new.claimTokenSha256 = old.claimTokenSha256)
      (ph : new.phase ≠ .terminal → old.phase ≠ .terminal) :
      ∃ att, r.attempts attemptId = some att ∧ att.deviceId = deviceId ∧ att.jobId = att'.jobId ∧
        att.claimTokenSha256 = att'.claimTokenSha256 ∧
        (att'.phase ≠ .terminal → att.phase ≠ .terminal) := by
    rw [attempts, update_eq_some] at ha
    rcases ha with ⟨rfl, rfl⟩ | ⟨-, ha⟩
    · exact ⟨old, hk, by simpa [dev] using hd, by simp [jid], by simp [tok], by simpa using ph⟩
    · exact ⟨att', ha, hd, rfl, rfl, id⟩
  cases e with
  | frame _ attempts => exact keep attempts
  | created _ _ _ _ attempts => exact keep attempts
  | cancelledQueued _ _ _ _ attempts => exact keep attempts
  | @claimed p job _ _ _ _ _ _ _ _ _ _ attempts =>
    rw [attempts, update_eq_some] at ha
    rcases ha with ⟨-, rfl⟩ | ⟨-, ha⟩
    · exact absurd (by simpa [claimedAttempt, newAttempt] using hd) (hc p rfl)
    · exact ⟨att', ha, hd, rfl, rfl, id⟩
  | started job att owns _ _ phase _ attempts =>
    exact set attempts owns.attempt_at rfl rfl rfl (fun _ => by simp [phase])
  | reported job att owns _ _ _ _ attempts =>
    exact set attempts owns.attempt_at rfl rfl rfl (by simp [reportedAttempt])
  | cancelledActive job att _ _ attempt_at _ _ _ _ _ attempts =>
    exact set attempts attempt_at rfl rfl rfl (by simp [cancelledAttempt])
  | recorded job att owns _ attempts => exact set attempts owns.attempt_at rfl rfl rfl id

/-- A job keeps its workspace and its target. -/
theorem job_ids_step {c : Call} (e : Effect now r r' c) {job : JobRecordV2}
    (hj : r.jobs jobId = some job) : ∃ job', r'.jobs jobId = some job' ∧
      job'.workspaceId = job.workspaceId ∧ job'.targetId = job.targetId := by
  have keep (jobs : r'.jobs = r.jobs) : ∃ job', r'.jobs jobId = some job' ∧
      job'.workspaceId = job.workspaceId ∧ job'.targetId = job.targetId :=
    ⟨job, by rw [jobs, hj], rfl, rfl⟩
  have set {k : String} {old new : JobRecordV2} (hk : r.jobs k = some old)
      (ws : new.workspaceId = old.workspaceId) (tgt : new.targetId = old.targetId)
      (jobs : r'.jobs = update r.jobs k (some new)) : ∃ job', r'.jobs jobId = some job' ∧
      job'.workspaceId = job.workspaceId ∧ job'.targetId = job.targetId := by
    by_cases hid : jobId = k
    · subst hid
      rw [hj] at hk
      obtain rfl := Option.some.inj hk
      exact ⟨new, by rw [jobs, update_self], ws, tgt⟩
    · exact ⟨job, by rw [jobs, update_of_ne hid, hj], rfl, rfl⟩
  cases e with
  | frame jobs => exact keep jobs
  | started _ _ _ _ _ _ jobs => exact keep jobs
  | recorded _ _ _ jobs => exact keep jobs
  | created _ _ fresh jobs =>
    refine ⟨job, ?_, rfl, rfl⟩
    rw [jobs, update_of_ne, hj]
    rintro rfl
    rw [hj] at fresh
    cases fresh
  | claimed job' job_at _ _ _ _ _ _ _ _ jobs =>
    exact set job_at (by simp [claimedJob]) (by simp [claimedJob]) jobs
  | reported job' att owns _ _ _ jobs =>
    exact set owns.job_at (by simp [reportedJob]) (by simp [reportedJob]) jobs
  | cancelledActive job' att job_at _ _ _ _ _ _ jobs =>
    exact set job_at (by simp [cancelledJob]) (by simp [cancelledJob]) jobs
  | cancelledQueued job' job_at _ jobs =>
    exact set job_at (by simp [cancelledJob]) (by simp [cancelledJob]) jobs

/-- What the error of a claim says about the job. -/
def Refused (r : Redis) (now : Nat) (p : ClaimParams) : ScriptError → Prop
  | .jobAlreadyClaimed => ∃ job, r.jobs p.jobId = some job ∧
      job.latestAttemptId ≠ some p.attemptId ∧ job.status ≠ .queued
  | .jobExpired => ∃ job, r.jobs p.jobId = some job ∧ job.status = .queued ∧
      0 < job.claimDeadlineMs ∧ job.claimDeadlineMs ≤ now
  | .jobFinished => ∃ job att, r.jobs p.jobId = some job ∧
      job.latestAttemptId = some p.attemptId ∧ r.attempts p.attemptId = some att ∧
      att.phase = .terminal
  | .jobNotFound => ∀ job, r.jobs p.jobId = some job → job.jobId = p.jobId →
      job.workspaceId = p.expectedWorkspaceId → job.targetId ≠ p.expectedTargetId
  | .notOwnerReplay => p.isReplayOnly = true ∧
      ∃ job, r.jobs p.jobId = some job ∧ job.latestAttemptId ≠ some p.attemptId
  | _ => True

theorem claimReplay_refused {argv : ClaimArgs} {e : ScriptError} {att : Option AttemptRecordV1}
    (h : claimReplay now argv att = .error e) : e = .corruptAttemptRecord ∨
      e = .idempotencyConflict ∨ e = .jobFinished ∧ ∃ a, att = some a ∧ a.phase = .terminal := by
  unfold claimReplay at h
  split at h
  · cases h
    exact .inl rfl
  · next a =>
    split_ifs at h
    · cases h
      exact .inr (.inl rfl)
    · split at h
      · cases h
      · cases h
      · next ht =>
        cases h
        exact .inr (.inr ⟨rfl, a, rfl, ht⟩)

theorem claimScript_refused {p : ClaimParams} {e : ScriptError}
    (h : (claimScript now p r).1 = .error e) : Refused r now p e := by
  unfold claimScript v2ClaimJobScript at h
  dsimp only at h
  cases hj : r.jobs p.jobId with
  | none =>
    simp only [hj] at h
    by_cases hf : r.fenced p.expectedTargetId now = true
    · rw [if_pos hf] at h
      cases h
      trivial
    · rw [if_neg hf] at h
      cases h
      simp [Refused, hj]
  | some job =>
    simp only [hj] at h
    split_ifs at h with hf hid hl hro hst hexp hcol
    · cases h
      trivial
    · cases h
      intro job' hj' h1 h2 h3
      rw [hj] at hj'
      cases hj'
      exact absurd hid (by simp [h1, h2, h3])
    · rcases claimReplay_refused h with rfl | rfl | ⟨rfl, a, ha, hp⟩
      · trivial
      · trivial
      · exact ⟨job, a, hj, hl, ha, hp⟩
    · cases h
      exact ⟨hro, job, hj, hl⟩
    · cases h
      exact ⟨job, hj, hl, hst⟩
    · cases h
      exact ⟨job, hj, by simpa using hst, hexp⟩
    · cases h
      trivial

/-- The errors of a claim, other than a record that does not parse, are those of its script. -/
theorem claimJob_error {p : ClaimParams} {e : V2Error} (h : (claimJob now p r).1 = .error e)
    (hs : ∀ m, e ≠ .schema m) : ∃ s, (claimScript now p r).1 = .error s ∧ claimError s = e := by
  unfold claimJob at h
  split at h
  · next reply r'' hr =>
    cases reply <;>
    · simp only [parsedClaim] at h
      unfold schemaError at h
      split at h
      · cases h
      · cases h
        exact absurd rfl (hs _)
  · next s r'' hr =>
    cases h
    exact ⟨s, by rw [hr], rfl⟩

/-- **The answers that say a job is gone.** -/
theorem OutOfReach.refused (L : Linkage r) {p : ClaimParams} {e : V2Error}
    (h : (claimJob now p r).1 = .error e) (he : e = .alreadyClaimed ∨ e = .expired ∨ e = .finished) :
    OutOfReach r now p.jobId p.attemptId := by
  obtain ⟨s, hs, rfl⟩ := claimJob_error h (by rintro m rfl; simp at he)
  have href := claimScript_refused hs
  cases s <;> simp [claimError] at he
  · obtain ⟨job, att, hj, hl, ha, hp⟩ := href
    obtain ⟨att', hid, hlat⟩ := L.names hj hl
    have hst := hlat.stored
    rw [hid, ha] at hst
    obtain rfl := Option.some.inj hst
    refine .ended hj ?_
    have link := L.linked hj
    unfold Linked at link
    cases hs : job.status <;> simp only [hs] at link
    · rw [link] at hl
      cases hl
    · exact absurd hp (L.active_phase hj hs hlat)
    · rfl
  · obtain ⟨job, hj, hl, hst⟩ := href
    have link := L.linked hj
    unfold Linked at link
    cases hs : job.status <;> simp only [hs] at link
    · exact absurd hs hst
    · obtain ⟨att, hlat, -⟩ := link
      refine ⟨job, hj, .inr (.inl ⟨_, hlat.latest, ?_⟩)⟩
      intro hb
      exact hl (hb ▸ hlat.latest)
    · exact .ended hj hs
  · obtain ⟨job, hj, hst, hd⟩ := href
    have link := L.linked hj
    simp only [Linked, hst] at link
    exact ⟨job, hj, .inr (.inr ⟨link, hd⟩)⟩

/-- A report that is acknowledged has ended its attempt. -/
theorem OutOfReach.reported (L : Linkage r) {p : AttemptParams} {rep : ExecutionReport}
    {reply : ReportReply} (h : (reportJob now p rep r).1 = .ok reply) :
    OutOfReach (reportJob now p rep r).2 now p.jobId p.attemptId := by
  unfold reportJob at h ⊢
  cases hs : v2ReportJobScript now p.keys p.argv rep r with
  | mk res r'' =>
    rw [hs] at h
    cases res with
    | error e => cases h
    | ok reply' =>
      show OutOfReach r'' now p.jobId p.attemptId
      unfold v2ReportJobScript at hs
      cases hj : r.jobs p.keys.job with
      | none =>
        rw [hj] at hs
        cases hs
      | some job =>
        cases ha : r.attempts p.keys.attempt with
        | none =>
          rw [hj, ha] at hs
          cases hs
        | some att =>
          simp only [hj, ha] at hs
          cases hinv : reportInvariants rep with
          | error e =>
            simp only [hinv] at hs
            split_ifs at hs <;> cases hs
          | ok u =>
            simp only [hinv] at hs
            split_ifs at hs with hshape hlat hst hid hterm
            · cases hs
            · cases hs
            · cases hs
            · cases hs
            · -- the attempt has a report already
              obtain ⟨-, rfl⟩ := Prod.mk.inj hs
              have hl : job.latestAttemptId = some p.attemptId := not_not.1 hlat
              obtain ⟨att', hid', hlat'⟩ := L.names hj hl
              have hst' := hlat'.stored
              rw [hid'] at hst'
              obtain rfl := Option.some.inj (ha.symm.trans hst')
              refine .ended hj ?_
              by_contra hne
              have hact : job.status = .active := by
                by_contra hna
                exact hst ⟨hna, hne⟩
              exact L.active_phase hj hact hlat' hterm
            · split at hs
              · cases hs
              · obtain ⟨-, rfl⟩ := Prod.mk.inj hs
                exact ⟨Cjson.encodeJob { job with status := .terminal },
                  by simp [Redis.setJob, AttemptParams.keys], .inl (by simp)⟩

/-- A job that is shown as terminal has ended. -/
theorem OutOfReach.detail {nowMs : Nat} {d : DeviceDetail} (h : deviceDetail nowMs jobId r = .ok d)
    (hs : d.state = .terminal) (attemptId : String) : OutOfReach r clock jobId attemptId := by
  unfold deviceDetail at h
  obtain ⟨o, ho, h⟩ := bind_eq_ok.1 h
  cases o with
  | none => cases h
  | some job =>
    obtain ⟨att, -, h⟩ := bind_eq_ok.1 h
    obtain ⟨state, hst, h⟩ := bind_eq_ok.1 h
    cases h
    exact .ended (getJob_stored ho) ((derive_terminal hst).1 hs)

end store

/-! ### the condition -/

def Body.claims (attemptId : String) : Body → Bool
  | .claim _ a _ => a == attemptId
  | _ => false

namespace World

/-- A claim request of the attempt is on its way, or waits for its script. -/
def underway (w : World) (attemptId : String) : Bool :=
  w.requests.any (·.body.claims attemptId) || w.pending.any (·.request.body.claims attemptId)

/-- The job can still be claimed. -/
def claimable (w : World) (jobId : String) : Bool :=
  match w.redis.jobs jobId with
  | none => false
  | some job => job.status == .queued && (job.claimDeadlineMs == 0 || w.clock < job.claimDeadlineMs)

def drop (w : World) (i : Nat) : World := { w with requests := w.requests.eraseIdx i }

end World

/-- The claim, by job and attempt, that the coordinator turns away with `JOB_NOT_FOUND` when it
takes up request `i`. -/
def turnedAway (host : Host) (w : World) (i : Nat) : Option (String × String) :=
  match w.requests[i]? with
  | some ⟨_, .claim jobId attemptId claimToken⟩ =>
    match claimRequest host.sha256 w.eligible host.deviceId jobId attemptId claimToken w.redis with
    | .error .jobNotFound => some (jobId, attemptId)
    | _ => none
  | _ => none

/-- **The condition.** When a claim of a job that can still be claimed is turned away, no other
request of that attempt is on its way. -/
def Calm (host : Host) (w : World) : Event → Prop
  | .serve i _ _ => ∀ k ∈ turnedAway host w i, w.claimable k.1 = true →
      (w.drop i).underway k.2 = false
  | _ => True

/-! ### the invariant -/

def Intent.body (i : Intent) : Body := .claim i.jobId i.attemptId i.claimToken

namespace World

def Out (w : World) (jobId attemptId : String) : Prop := OutOfReach w.redis w.clock jobId attemptId

/-- The request is on its way, or waits for its script. -/
def Flying (w : World) (q : Request) : Prop := q ∈ w.requests ∨ ∃ c ∈ w.pending, c.request = q

def Asks (w : World) (i : Intent) : Prop := ∃ q, w.Flying q ∧ q.body = i.body

def Holds (w : World) (i : Intent) : Prop := ∃ a, w.dir.activeAttempt = some a ∧ a.intent = i

/-- The marker, if there is one, is that of the attempt. -/
def Same (w : World) (jobId attemptId : String) : Prop :=
  ∀ a, w.dir.activeAttempt = some a → a.jobId = jobId ∧ a.attemptId = attemptId

def Awaits (w : World) (q : Request) : Prop := ∃ stage, w.pc = .await q stage

end World

theorem World.underway_iff {w : World} {attemptId : String} :
    w.underway attemptId = true ↔ ∃ i, w.Asks i ∧ i.attemptId = attemptId := by
  have hb (b : Body) : b.claims attemptId = true ↔
      ∃ i : Intent, b = i.body ∧ i.attemptId = attemptId := by
    unfold Body.claims Intent.body
    split
    · next j a t =>
      simp only [beq_iff_eq]
      constructor
      · rintro rfl
        exact ⟨⟨j, a, t⟩, rfl, rfl⟩
      · rintro ⟨i, hi, rfl⟩
        cases hi
        rfl
    · next hne =>
      simp only [Bool.false_eq_true, false_iff]
      rintro ⟨i, rfl, -⟩
      exact hne _ _ _ rfl
  simp only [World.underway, World.Asks, Bool.or_eq_true, List.any_eq_true, hb]
  constructor
  · rintro (⟨q, hq, i, h, ha⟩ | ⟨c, hc, i, h, ha⟩)
    · exact ⟨i, ⟨q, .inl hq, h⟩, ha⟩
    · exact ⟨i, ⟨c.request, .inr ⟨c, hc, rfl⟩, h⟩, ha⟩
  · rintro ⟨i, ⟨_, hq | ⟨c, hc, rfl⟩, h⟩, ha⟩
    · exact .inl ⟨_, hq, i, h, ha⟩
    · exact .inr ⟨c, hc, i, h, ha⟩

section Inv

variable (host : Host)

/-- The daemon may let go of the attempt. -/
def Freed (w : World) (jobId attemptId : String) : Prop :=
  w.Out jobId attemptId ∨ w.underway attemptId = false ∧
    ∀ att, w.redis.attempts attemptId = some att → att.deviceId = host.deviceId →
      att.phase = .terminal

structure ReplySound (w : World) (q : Request) (answer : Answer) : Prop where
  number : q.call < w.nextCall
  gone : ∀ j a t e, q.body = .claim j a t → answer = .claim (.error e) →
    e = .alreadyClaimed ∨ e = .expired ∨ e = .finished → w.Out j a
  notFound : ∀ j a t, q.body = .claim j a t → answer = .claim (.error .jobNotFound) →
    w.Awaits q → Freed host w j a
  reported : ∀ j a t rep, q.body = .report j a t rep → answer = .report (.ok ()) → w.Out j a
  ended : ∀ j d, q.body = .getJob j → answer = .detail (.ok d) → d.state = .terminal →
    ∀ a, w.Out j a

/-- What a claim that waits for its script has been read from. -/
structure PendingSound (r : Redis) (c : Pending) : Prop where
  ask : ∃ t, c.request.body = .claim c.params.jobId c.params.attemptId t ∧
    c.params.claimTokenSha256 = host.sha256 t
  device : c.params.deviceId = host.deviceId
  job : ∃ job, r.jobs c.params.jobId = some job ∧
    job.workspaceId = c.params.expectedWorkspaceId ∧ job.targetId = c.params.expectedTargetId ∧
    (c.params.isReplayOnly = true → job.latestAttemptId = some c.params.attemptId)

def Await.Sound (w : World) (q : Request) : Await → Prop
  | .claim a => q.body = a.intent.body ∧ w.Same a.jobId a.attemptId
  | .start a => w.Same a.jobId a.attemptId
  | .startRefused a | .cancelPoll a | .reconcile a | .recover a =>
    q.body = .getJob a.jobId ∧ w.Same a.jobId a.attemptId
  | .report o => q.body = .report o.jobId o.attemptId o.claimToken o.report
  | .reportRefused o _ => q.body = .getJob o.jobId ∧ w.Same o.jobId o.attemptId

def FileStep.Sound (w : World) : FileStep → Prop
  | .writeHistory h => w.Out h.jobId h.attemptId
  | .removeActive => ∀ a, w.dir.activeAttempt = some a → Freed host w a.jobId a.attemptId
  | .removeOutbox _ _ | .finalize _ _ => True

def Pc.Sound (w : World) : Pc → Prop
  | .off | .loop => True
  | .await q stage => q.call < w.nextCall ∧ stage.Sound w q
  | .work steps => ∀ s ∈ steps, s.Sound host w

structure Inv (w : World) : Prop where
  sound : Jobs.Sound w.redis
  unique : ∀ i ∈ w.intents, ∀ j ∈ w.intents, i.attemptId = j.attemptId → i = j
  known : ∀ i ∈ w.intents, ∃ job, w.redis.jobs i.jobId = some job
  active : ∀ a, w.dir.activeAttempt = some a → a.intent ∈ w.intents
  store : ∀ k att, w.redis.attempts k = some att → att.deviceId = host.deviceId →
    ∃ i ∈ w.intents, i.attemptId = k ∧ i.jobId = att.jobId ∧
      host.sha256 i.claimToken = att.claimTokenSha256
  live : ∀ k att, w.redis.attempts k = some att → att.deviceId = host.deviceId →
    att.phase ≠ .terminal → ∃ a, w.dir.activeAttempt = some a ∧ a.attemptId = k
  numbers : ∀ q, w.Flying q → q.call < w.nextCall
  asked : ∀ i, w.Asks i → i ∈ w.intents ∧ (w.Holds i ∨ w.Out i.jobId i.attemptId)
  pending : ∀ c ∈ w.pending, PendingSound host w.redis c
  history : ∀ h ∈ w.dir.history, w.Out h.jobId h.attemptId
  reply : ∀ x ∈ w.replies, ReplySound host w x.1 x.2
  pc : w.pc.Sound host w

theorem Inv.init : Inv host World.init where
  sound := sound_reachable (.init rfl)
  unique i h := by cases h
  known i h := by cases h
  active a h := by cases h
  store k att h := by cases h
  live k att h := by cases h
  numbers q h := by
    rcases h with hq | ⟨c, hc, -⟩
    · cases hq
    · cases hc
  asked i h := by
    obtain ⟨q, hq | ⟨c, hc, -⟩, -⟩ := h
    · cases hq
    · cases hc
  pending c h := by cases h
  history h hh := by cases hh
  reply x h := by cases h
  pc := trivial

variable {host}

/-- An attempt of this device in the store is the intent's, with its job. -/
theorem Inv.job_of {w : World} (hi : Inv host w) {i : Intent} (h : i ∈ w.intents)
    {att : AttemptRecordV1} (ha : w.redis.attempts i.attemptId = some att)
    (hd : att.deviceId = host.deviceId) : att.jobId = i.jobId := by
  obtain ⟨j, hj, hk, hjob, -⟩ := hi.store _ _ ha hd
  rw [← hjob, hi.unique j hj i h hk]

/-- What makes out of reach keeps what the replies and the daemon go by. -/
structure Later (host : Host) (w w' : World) : Prop where
  out : ∀ j a, w.Out j a → w'.Out j a
  freed : ∀ j a, Freed host w j a → Freed host w' j a

theorem Later.refl (w : World) : Later host w w := ⟨fun _ _ h => h, fun _ _ h => h⟩

/-- Fewer requests on their way, nothing else. -/
theorem Later.fewer {w w' : World} (hr : w'.redis = w.redis) (hc : w'.clock = w.clock)
    (hf : ∀ q, w'.Flying q → w.Flying q) : Later host w w' := by
  have hout : ∀ j a, w.Out j a → w'.Out j a := fun j a h => by
    unfold World.Out
    rwa [hr, hc]
  refine ⟨hout, fun j a h => ?_⟩
  rcases h with h | ⟨hu, ht⟩
  · exact .inl (hout j a h)
  · refine .inr ⟨Bool.eq_false_iff.2 fun h => ?_, fun att h => ht att (hr ▸ h)⟩
    obtain ⟨i, ⟨q, hq, hb⟩, rfl⟩ := World.underway_iff.1 h
    exact Bool.eq_false_iff.1 hu (World.underway_iff.2 ⟨i, ⟨q, hf q hq, hb⟩, rfl⟩)

theorem ReplySound.later {w w' : World} {q : Request} {answer : Answer} (hl : Later host w w')
    (hn : w.nextCall ≤ w'.nextCall) (haw : w'.Awaits q → w.Awaits q)
    (h : ReplySound host w q answer) : ReplySound host w' q answer where
  number := Nat.lt_of_lt_of_le h.number hn
  gone j a t e hb ha he := hl.out _ _ (h.gone j a t e hb ha he)
  notFound j a t hb ha hw := hl.freed _ _ (h.notFound j a t hb ha (haw hw))
  reported j a t rep hb ha := hl.out _ _ (h.reported j a t rep hb ha)
  ended j d hb ha hs a := hl.out _ _ (h.ended j d hb ha hs a)

theorem FileStep.Sound.later {w w' : World} (hl : Later host w w')
    (hd : w'.dir.activeAttempt = w.dir.activeAttempt) {s : FileStep} (h : s.Sound host w) :
    s.Sound host w' := by
  cases s with
  | writeHistory r => exact hl.out _ _ h
  | removeOutbox _ _ => trivial
  | removeActive => exact fun a ha => hl.freed _ _ (h a (hd ▸ ha))
  | finalize _ _ => trivial

theorem Pc.Sound.later {w w' : World} (hl : Later host w w') (hn : w.nextCall ≤ w'.nextCall)
    (hd : w'.dir.activeAttempt = w.dir.activeAttempt) {pc : Pc} (h : pc.Sound host w) :
    pc.Sound host w' := by
  cases pc with
  | off => trivial
  | loop => trivial
  | work steps => exact fun s hs => FileStep.Sound.later hl hd (h s hs)
  | await q stage =>
    refine ⟨Nat.lt_of_lt_of_le h.1 hn, ?_⟩
    have hst := h.2
    cases stage <;> simp only [Await.Sound, World.Same, hd] at hst ⊢ <;> exact hst

/-! ### steps of the store and of the network -/

section network

variable {w : World}

/-- A store call that is no claim of this device. -/
theorem Inv.store_step (hi : Inv host w) {r' : Redis} {now : Nat} {c : Call}
    (e : Effect now w.redis r' c) (hc : ∀ p, c = .claim p → p.deviceId ≠ host.deviceId)
    (hle : w.clock ≤ now) : Inv host { w with redis := r', clock := now } := by
  have hsound : Jobs.Sound r' := ⟨hi.sound.linkage.step e, hi.sound.encoded.step e⟩
  have hlater : Later host w { w with redis := r', clock := now } := by
    refine ⟨fun j a h => h.step hi.sound e hle, fun j a h => ?_⟩
    rcases h with h | ⟨hu, ht⟩
    · exact .inl (h.step hi.sound e hle)
    · refine .inr ⟨hu, fun att ha hd => ?_⟩
      obtain ⟨old, ho, hdo, -, -, hp⟩ := attempts_back e hc ha hd
      by_contra hne
      exact hp hne (ht old ho hdo)
  exact
    { sound := hsound
      unique := hi.unique
      known := fun i h => by
        obtain ⟨job, hj⟩ := hi.known i h
        obtain ⟨job', hj', -⟩ := job_ids_step e hj
        exact ⟨job', hj'⟩
      active := hi.active
      store := fun k att ha hd => by
        obtain ⟨old, ho, hdo, hj, ht, -⟩ := attempts_back e hc ha hd
        rw [← hj, ← ht]
        exact hi.store k old ho hdo
      live := fun k att ha hd hp => by
        obtain ⟨old, ho, hdo, -, -, hph⟩ := attempts_back e hc ha hd
        exact hi.live k old ho hdo (hph hp)
      numbers := hi.numbers
      asked := fun i h => by
        obtain ⟨hmem, hh⟩ := hi.asked i h
        exact ⟨hmem, hh.imp_right (hlater.out _ _)⟩
      pending := fun c hcm => by
        have hp := hi.pending c hcm
        obtain ⟨job, hj, hws, htgt, hrep⟩ := hp.job
        obtain ⟨job', hj', hws', htgt'⟩ := job_ids_step e hj
        refine ⟨hp.ask, hp.device, job', hj', hws'.trans hws, htgt'.trans htgt, fun hr => ?_⟩
        obtain ⟨job'', hj'', hl⟩ := hi.sound.linkage.keepsLatest e _ _ _ hj (hrep hr)
        rw [hj'] at hj''
        cases hj''
        exact hl
      history := fun h hh => hlater.out _ _ (hi.history h hh)
      reply := fun x hx => (hi.reply x hx).later hlater (Nat.le_refl _) id
      pc := hi.pc.later hlater (Nat.le_refl _) rfl }

theorem Inv.tick (hi : Inv host w) {now : Nat} (hle : w.clock ≤ now) :
    Inv host { w with clock := now } :=
  hi.store_step (c := .pruneTargetQueue "" "") (.frame rfl rfl) (by simp) hle

/-- Requests are lost, repeated, or taken up. -/
theorem Inv.network (hi : Inv host w) {requests : List Request} {pending : List Pending}
    (hf : ∀ q, { w with requests := requests, pending := pending }.Flying q → w.Flying q)
    (hp : ∀ c ∈ pending, PendingSound host w.redis c) :
    Inv host { w with requests := requests, pending := pending } := by
  have hlater : Later host w { w with requests := requests, pending := pending } :=
    .fewer rfl rfl hf
  exact
    { hi with
      numbers := fun q h => hi.numbers q (hf q h)
      asked := fun i ⟨q, hq, hb⟩ => hi.asked i ⟨q, hf q hq, hb⟩
      pending := hp
      reply := fun x hx => (hi.reply x hx).later hlater (Nat.le_refl _) id
      pc := hi.pc.later hlater (Nat.le_refl _) rfl }

theorem Inv.drop (hi : Inv host w) (i : Nat) : Inv host (w.drop i) := by
  refine @Inv.network host w hi (w.requests.eraseIdx i) w.pending ?_ hi.pending
  exact fun q hq => hq.imp_left List.mem_of_mem_eraseIdx

theorem Inv.answer (hi : Inv host w) {q : Request} {answer : Answer}
    (h : ReplySound host w q answer) : Inv host { w with replies := (q, answer) :: w.replies } := by
  have hlater : Later host w { w with replies := (q, answer) :: w.replies } :=
    .fewer rfl rfl fun _ h => h
  refine { hi with reply := ?_, pc := hi.pc.later hlater (Nat.le_refl _) rfl }
  intro x hx
  rcases List.mem_cons.1 hx with rfl | hx
  · exact h.later hlater (Nat.le_refl _) id
  · exact (hi.reply x hx).later hlater (Nat.le_refl _) id

theorem Inv.dropReply (hi : Inv host w) (i : Nat) :
    Inv host { w with replies := w.replies.eraseIdx i } := by
  have hlater : Later host w { w with replies := w.replies.eraseIdx i } :=
    .fewer rfl rfl fun _ h => h
  refine { hi with reply := ?_, pc := hi.pc.later hlater (Nat.le_refl _) rfl }
  intro x hx
  exact (hi.reply x (List.mem_of_mem_eraseIdx hx)).later hlater (Nat.le_refl _) id

/-- A queued job that is still open is out of nobody's reach. -/
theorem OutOfReach.not_open (L : Linkage w.redis) {job : JobRecordV2} {jobId attemptId : String}
    (hj : w.redis.jobs jobId = some job) (hq : job.status = .queued)
    (hlive : job.claimDeadlineMs = 0 ∨ w.clock < job.claimDeadlineMs) :
    ¬ w.Out jobId attemptId := by
  rintro ⟨job', hj', hout⟩
  rw [hj] at hj'
  obtain rfl := Option.some.inj hj'
  have link := L.linked hj
  simp only [Linked, hq] at link
  rcases hout with hs | ⟨b, hb, -⟩ | ⟨-, hd⟩
  · rw [hq] at hs
    cases hs
  · rw [link] at hb
    cases hb
  · omega

/-- **The script of a claim.** A claim that takes the job is one the device still holds. -/
theorem Inv.claim_step (hi : Inv host w) {c : Pending} (hc : c ∈ w.pending) {r' : Redis} {now : Nat}
    (e : Effect now w.redis r' (.claim c.params)) (hle : w.clock ≤ now) :
    Inv host { w with redis := r', clock := now } := by
  have hps := hi.pending c hc
  obtain ⟨t, hb, htok⟩ := hps.ask
  have hask : w.Asks ⟨c.params.jobId, c.params.attemptId, t⟩ :=
    ⟨c.request, .inr ⟨c, hc, rfl⟩, hb⟩
  obtain ⟨hmem, hh⟩ := hi.asked _ hask
  have hunder : w.underway c.params.attemptId = true := World.underway_iff.2 ⟨_, hask, rfl⟩
  have hsound : Jobs.Sound r' := ⟨hi.sound.linkage.step e, hi.sound.encoded.step e⟩
  have he := e
  cases e with
  | frame jobs attempts =>
    exact hi.store_step (c := .pruneTargetQueue "" "") (.frame jobs attempts) (by simp) hle
  | claimed job job_at jobId workspace target isNew queued live fresh unfenced jobs attempts =>
    have hholds : w.Holds ⟨c.params.jobId, c.params.attemptId, t⟩ := by
      refine hh.resolve_right (OutOfReach.not_open hi.sound.linkage job_at queued ?_)
      exact live.imp_right (Nat.lt_of_le_of_lt hle)
    have hother (k : String) (hk : w.underway k = false) : r'.attempts k = w.redis.attempts k := by
      rw [attempts, update_of_ne]
      rintro rfl
      rw [hunder] at hk
      cases hk
    have hlater : Later host w { w with redis := r', clock := now } := by
      refine ⟨fun j a h => h.step hi.sound he hle, fun j a h => ?_⟩
      rcases h with h | ⟨hu, ht⟩
      · exact .inl (h.step hi.sound he hle)
      · exact .inr ⟨hu, fun att ha => ht att (hother a hu ▸ ha)⟩
    exact
      { sound := hsound
        unique := hi.unique
        known := fun i h => by
          obtain ⟨job, hj⟩ := hi.known i h
          obtain ⟨job', hj', -⟩ := job_ids_step he hj
          exact ⟨job', hj'⟩
        active := hi.active
        store := fun k att ha hd => by
          have ha' : r'.attempts k = some att := ha
          rw [attempts, update_eq_some] at ha'
          rcases ha' with ⟨rfl, rfl⟩ | ⟨-, ha'⟩
          · refine ⟨_, hmem, rfl, ?_, ?_⟩
            · simp [claimedAttempt, newAttempt, jobId]
            · simp [claimedAttempt, newAttempt, htok]
          · exact hi.store k att ha' hd
        live := fun k att ha hd hp => by
          have ha' : r'.attempts k = some att := ha
          rw [attempts, update_eq_some] at ha'
          rcases ha' with ⟨rfl, -⟩ | ⟨-, ha'⟩
          · obtain ⟨a, hact, hint⟩ := hholds
            exact ⟨a, hact, congrArg Intent.attemptId hint⟩
          · exact hi.live k att ha' hd hp
        numbers := hi.numbers
        asked := fun i h => by
          obtain ⟨hm, hor⟩ := hi.asked i h
          exact ⟨hm, hor.imp_right (hlater.out _ _)⟩
        pending := fun d hdm => by
          have hp := hi.pending d hdm
          obtain ⟨job, hj, hws, htgt, hrep⟩ := hp.job
          obtain ⟨job', hj', hws', htgt'⟩ := job_ids_step he hj
          refine ⟨hp.ask, hp.device, job', hj', hws'.trans hws, htgt'.trans htgt, fun hr => ?_⟩
          obtain ⟨job'', hj'', hl⟩ := hi.sound.linkage.keepsLatest he _ _ _ hj (hrep hr)
          rw [hj'] at hj''
          cases hj''
          exact hl
        history := fun h hh => hlater.out _ _ (hi.history h hh)
        reply := fun x hx => (hi.reply x hx).later hlater (Nat.le_refl _) id
        pc := hi.pc.later hlater (Nat.le_refl _) rfl }

/-- The script does not answer `JOB_NOT_FOUND`: the job was there when it was read. -/
theorem PendingSound.found {r : Redis} (L : Linkage r) {c : Pending} (h : PendingSound host r c)
    {now : Nat} : (claimJob now c.params r).1 ≠ .error .jobNotFound := by
  intro he
  obtain ⟨job, hj, hws, htgt, hrep⟩ := h.job
  obtain ⟨s, hs, hse⟩ := claimJob_error he (by simp)
  have href := claimScript_refused hs
  cases s <;> simp [claimError] at hse
  · exact href job hj (L.job_key hj) hws htgt
  · obtain ⟨hro, job', hj', hne⟩ := href
    rw [hj] at hj'
    obtain rfl := Option.some.inj hj'
    exact hne (hrep hro)

theorem map_eq_error {ε α β : Type} {x : Except ε α} {f : α → β} {e : ε}
    (h : x.map f = .error e) : x = .error e := by
  cases x with
  | error e' =>
    cases h
    rfl
  | ok a => cases h

theorem map_eq_ok {ε α β : Type} {x : Except ε α} {f : α → β} {b : β} (h : x.map f = .ok b) :
    ∃ a, x = .ok a := by
  cases x with
  | error e' => cases h
  | ok a => exact ⟨a, rfl⟩

theorem Inv.runClaim (hi : Inv host w) {i now : Nat} (hle : w.clock ≤ now) {w' : World}
    (h : Connector.runClaim w i now = some w') : Inv host w' := by
  unfold Connector.runClaim at h
  split at h
  · cases h
  · next c hc =>
    cases h
    have hmem : c ∈ w.pending := List.mem_of_getElem? hc
    have hps := hi.pending c hmem
    obtain ⟨t, hb, -⟩ := hps.ask
    have he := claimJob_effect now c.params w.redis
    have hstore := hi.claim_step hmem he hle
    have hnum : c.request.call < w.nextCall := hi.numbers _ (.inr ⟨c, hmem, rfl⟩)
    have hnet := @Inv.network host _ hstore w.requests (w.pending.eraseIdx i)
      (fun q hq => hq.imp_right fun ⟨d, hd, hdb⟩ => ⟨d, List.mem_of_mem_eraseIdx hd, hdb⟩)
      (fun d hd => hstore.pending d (List.mem_of_mem_eraseIdx hd))
    refine hnet.answer (q := c.request) ⟨hnum, ?_, ?_, ?_, ?_⟩
    · intro j a t' e hq ha hor
      rw [hb] at hq
      cases hq
      simp only [Answer.claim.injEq] at ha
      exact (OutOfReach.refused hi.sound.linkage (map_eq_error ha) hor).step hi.sound he (Nat.le_refl _)
    · intro j a t' hq ha
      simp only [Answer.claim.injEq] at ha
      exact absurd (map_eq_error ha) (hps.found hi.sound.linkage)
    · intro j a t' rep hq
      rw [hb] at hq
      cases hq
    · intro j d hq
      rw [hb] at hq
      cases hq

theorem getJob_error {r : Redis} {id : String} {e : V2Error} (h : getJob r id = .error e) :
    ∃ m, e = .schema m := by
  cases hj : r.jobs id with
  | none =>
    rw [getJob_of_none hj] at h
    cases h
  | some job =>
    rcases getJob_of_some hj with ⟨hok, -⟩ | ⟨⟨m, hm⟩, -⟩
    · rw [hok] at h
      cases h
    · rw [hm] at h
      cases h
      exact ⟨m, rfl⟩

theorem claimRequest_error {sha256 : String → String} {eligible : String → Option EligibleBinding}
    {deviceId jobId attemptId claimToken : String} {r : Redis} {e : V2Error}
    (h : claimRequest sha256 eligible deviceId jobId attemptId claimToken r = .error e) :
    (∃ m, e = .validation m) ∨ (∃ m, e = .schema m) ∨
      e = .jobNotFound ∧ ∀ job, r.jobs jobId = some job → job.latestAttemptId ≠ some attemptId := by
  unfold claimRequest at h
  split_ifs at h
  · cases h
    exact .inl ⟨_, rfl⟩
  · cases h
    exact .inl ⟨_, rfl⟩
  · split at h
    · next e' he =>
      cases h
      exact .inr (.inl (getJob_error he))
    · next hn =>
      cases h
      refine .inr (.inr ⟨rfl, fun job hj => ?_⟩)
      rw [getJob_stored hn] at hj
      cases hj
    · next job hj =>
      split_ifs at h with hl
      have hne : ∀ job', r.jobs jobId = some job' → job'.latestAttemptId ≠ some attemptId := by
        intro job' hj'
        rw [getJob_stored hj] at hj'
        obtain rfl := Option.some.inj hj'
        exact hl
      split at h
      · cases h
        exact .inr (.inr ⟨rfl, hne⟩)
      · split_ifs at h
        cases h
        exact .inr (.inr ⟨rfl, hne⟩)

theorem claimRequest_ok {sha256 : String → String} {eligible : String → Option EligibleBinding}
    {deviceId jobId attemptId claimToken : String} {r : Redis} {p : ClaimParams}
    (h : claimRequest sha256 eligible deviceId jobId attemptId claimToken r = .ok p) :
    p.jobId = jobId ∧ p.attemptId = attemptId ∧ p.deviceId = deviceId ∧
      p.claimTokenSha256 = sha256 claimToken ∧
      ∃ job, r.jobs jobId = some job ∧ job.workspaceId = p.expectedWorkspaceId ∧
        job.targetId = p.expectedTargetId ∧
        (p.isReplayOnly = true → job.latestAttemptId = some attemptId) := by
  unfold claimRequest at h
  split_ifs at h
  split at h
  · cases h
  · cases h
  · next job hj =>
    split_ifs at h with hl
    · cases h
      exact ⟨rfl, rfl, rfl, rfl, job, getJob_stored hj, rfl, rfl, fun _ => hl⟩
    · split at h
      · cases h
      · split_ifs at h
        cases h
        exact ⟨rfl, rfl, rfl, rfl, job, getJob_stored hj, rfl, rfl, fun hr => by cases hr⟩

/-- A claim that is turned away under the condition frees its attempt. -/
theorem Inv.turned_away (hi : Inv host w) {i : Nat} {q : Request} {j a t : String}
    (hq : w.requests[i]? = some q) (hb : q.body = .claim j a t)
    (he : claimRequest host.sha256 w.eligible host.deviceId j a t w.redis = .error .jobNotFound)
    (hc : w.claimable j = true → (w.drop i).underway a = false) : Freed host (w.drop i) j a := by
  have L := hi.sound.linkage
  have hne : ∀ job, w.redis.jobs j = some job → job.latestAttemptId ≠ some a := by
    rcases claimRequest_error he with ⟨m, hm⟩ | ⟨m, hm⟩ | ⟨-, h⟩
    · cases hm
    · cases hm
    · exact h
  have hask : w.Asks ⟨j, a, t⟩ := ⟨q, .inl (List.mem_of_getElem? hq), hb⟩
  obtain ⟨hmem, -⟩ := hi.asked _ hask
  obtain ⟨job, hj⟩ := hi.known _ hmem
  have link := L.linked hj
  unfold Linked at link
  cases hs : job.status <;> simp only [hs] at link
  · by_cases hlive : w.claimable j = true
    · refine .inr ⟨hc hlive, fun att ha hd => ?_⟩
      exact absurd (hi.job_of hmem ha hd) (L.queued_free hj hs ha)
    · refine .inl ⟨job, hj, .inr (.inr ⟨link, ?_⟩)⟩
      simp only [World.claimable, hj, hs, beq_self_eq_true, Bool.true_and, Bool.or_eq_true,
        beq_iff_eq, decide_eq_true_eq, not_or] at hlive
      show 0 < job.claimDeadlineMs ∧ job.claimDeadlineMs ≤ w.clock
      omega
  · obtain ⟨att, hl, -⟩ := link
    exact .inl ⟨job, hj, .inr (.inl ⟨_, hl.latest, fun h => hne job hj (h ▸ hl.latest)⟩)⟩
  · exact .inl (.ended hj hs)

/-- **The coordinator takes up a request.** -/
theorem Inv.serve (hi : Inv host w) {i now nowMs : Nat} (hle : w.clock ≤ now)
    (hc : Calm host w (.serve i now nowMs)) {w' : World}
    (h : Connector.serve host w i now nowMs = some w') : Inv host w' := by
  unfold Connector.serve at h
  cases hq : w.requests[i]? with
  | none =>
    rw [hq] at h
    cases h
  | some q =>
    simp only [hq] at h
    have hnum : q.call < w.nextCall := hi.numbers _ (.inl (List.mem_of_getElem? hq))
    cases hb : q.body with
    | claim j a t =>
      simp only [hb] at h
      cases hr : claimRequest host.sha256 w.eligible host.deviceId j a t w.redis with
      | error e =>
        simp only [hr] at h
        cases h
        have hfree : e = .jobNotFound → Freed host (w.drop i) j a := by
          rintro rfl
          refine hi.turned_away hq hb hr (fun hcl => ?_)
          refine hc (j, a) ?_ hcl
          unfold turnedAway
          rw [hq]
          obtain ⟨call, body⟩ := q
          cases hb
          simp only [hr]
          rfl
        refine ((hi.drop i).answer (q := q) ⟨hnum, ?_, ?_, ?_, ?_⟩).tick hle
        · intro j' a' t' e' hb' ha hor
          simp only [Answer.claim.injEq, Except.error.injEq] at ha
          subst ha
          rcases claimRequest_error hr with ⟨m, rfl⟩ | ⟨m, rfl⟩ | ⟨rfl, -⟩ <;> simp at hor
        · intro j' a' t' hb' ha _
          rw [hb] at hb'
          cases hb'
          simp only [Answer.claim.injEq, Except.error.injEq] at ha
          exact hfree ha
        · intro j' a' t' rep hb'
          rw [hb] at hb'
          cases hb'
        · intro j' d hb'
          rw [hb] at hb'
          cases hb'
      | ok p =>
        simp only [hr] at h
        cases h
        obtain ⟨hj, ha, hdev, htok, job, hjob, hws, htgt, hrep⟩ := claimRequest_ok hr
        refine (@Inv.network host w hi (w.requests.eraseIdx i) (⟨q, p⟩ :: w.pending)
          ?_ ?_).tick hle
        · rintro q' (hq' | ⟨c, hcm, rfl⟩)
          · exact .inl (List.mem_of_mem_eraseIdx hq')
          · rcases List.mem_cons.1 hcm with rfl | hcm
            · exact .inl (List.mem_of_getElem? hq)
            · exact .inr ⟨c, hcm, rfl⟩
        · intro c hcm
          rcases List.mem_cons.1 hcm with rfl | hcm
          · subst hj ha
            exact ⟨⟨t, hb, htok⟩, hdev, job, hjob, hws, htgt, hrep⟩
          · exact hi.pending c hcm
    | start j a t =>
      simp only [hb] at h
      cases h
      have hst := (hi.drop i).store_step
        (startJob_effect now ⟨j, a, host.deviceId, host.sha256 t⟩ w.redis) (by simp) hle
      refine hst.answer (q := q) ⟨hnum, ?_, ?_, ?_, ?_⟩
      all_goals simp [hb]
    | report j a t rep =>
      simp only [hb] at h
      cases h
      have hst := (hi.drop i).store_step
        (reportJob_effect now ⟨j, a, host.deviceId, host.sha256 t⟩ rep w.redis) (by simp) hle
      refine hst.answer (q := q) ⟨hnum, ?_, ?_, ?_, ?_⟩
      · simp [hb]
      · simp [hb]
      · intro j' a' t' rep' hb' ha
        rw [hb] at hb'
        cases hb'
        simp only [Answer.report.injEq] at ha
        obtain ⟨reply, hok⟩ := map_eq_ok ha
        exact OutOfReach.reported hi.sound.linkage hok
      · simp [hb]
    | getJob j =>
      simp only [hb] at h
      cases h
      refine ((hi.drop i).answer (q := q) ⟨hnum, ?_, ?_, ?_, ?_⟩).tick hle
      · simp [hb]
      · simp [hb]
      · simp [hb]
      · intro j' d hb' ha hs a
        rw [hb] at hb'
        cases hb'
        simp only [Answer.detail.injEq] at ha
        exact OutOfReach.detail ha hs a

end network

/-! ### steps of the daemon -/

section daemon

variable {w : World}

/-- The daemon waits for nothing. -/
theorem Inv.setPc (hi : Inv host w) {pc : Pc} (hs : pc.Sound host w)
    (hw : ∀ q stage, pc ≠ .await q stage) : Inv host { w with pc := pc } := by
  have hlater : Later host w { w with pc := pc } := .fewer rfl rfl fun _ h => h
  refine { hi with reply := ?_, pc := hs.later hlater (Nat.le_refl _) rfl }
  intro x hx
  refine (hi.reply x hx).later hlater (Nat.le_refl _) ?_
  rintro ⟨stage, hst⟩
  exact absurd hst (hw _ _)

theorem Inv.toLoop (hi : Inv host w) : Inv host { w with pc := .loop } :=
  hi.setPc trivial (by simp)

/-- The daemon writes steps down. -/
theorem Inv.toWork (hi : Inv host w) {steps : List FileStep} (hs : ∀ s ∈ steps, s.Sound host w) :
    Inv host { w with pc := .work steps } :=
  hi.setPc hs (by simp)

/-- The marker is saved for the same attempt. -/
theorem Inv.resave (hi : Inv host w) {a b : ActiveAttempt} (ha : w.dir.activeAttempt = some a)
    (hb : b.intent = a.intent) :
    Inv host { w with dir := { w.dir with activeAttempt := some b } } := by
  have hj : b.jobId = a.jobId := congrArg Intent.jobId hb
  have hk : b.attemptId = a.attemptId := congrArg Intent.attemptId hb
  have hlater : Later host w { w with dir := { w.dir with activeAttempt := some b } } :=
    .fewer rfl rfl fun _ h => h
  have hsame {j k : String} (h : w.Same j k) :
      { w with dir := { w.dir with activeAttempt := some b } }.Same j k := by
    intro x hx
    cases hx
    rw [hj, hk]
    exact h a ha
  refine
    { hi with
      active := fun x hx => ?_
      live := fun k att hatt hd hp => ?_
      asked := fun i h => ?_
      reply := fun x hx => (hi.reply x hx).later hlater (Nat.le_refl _) id
      pc := ?_ }
  · cases hx
    rw [hb]
    exact hi.active a ha
  · obtain ⟨x, hx, hxk⟩ := hi.live k att hatt hd hp
    rw [ha] at hx
    cases hx
    exact ⟨b, rfl, hk.trans hxk⟩
  · obtain ⟨hm, hh⟩ := hi.asked i h
    refine ⟨hm, hh.imp_left ?_⟩
    rintro ⟨x, hx, hxi⟩
    rw [ha] at hx
    cases hx
    exact ⟨b, rfl, hb.trans hxi⟩
  · have hpc := hi.pc
    show w.pc.Sound host _
    cases hw : w.pc with
    | off => trivial
    | loop => trivial
    | work steps =>
      rw [hw] at hpc
      intro s hs
      have := hpc s hs
      cases s with
      | writeHistory h => exact this
      | removeOutbox _ _ => trivial
      | finalize _ _ => trivial
      | removeActive =>
        intro x hx
        cases hx
        rw [hj, hk]
        exact hlater.freed _ _ (this a ha)
    | await q stage =>
      rw [hw] at hpc
      refine ⟨hpc.1, ?_⟩
      have hst := hpc.2
      cases stage <;> first
        | exact ⟨hst.1, hsame hst.2⟩
        | exact hsame hst
        | exact hst

theorem Inv.savePhase (hi : Inv host w) (attemptId : String) (ph : Phase) :
    Inv host (w.savePhase attemptId ph) := by
  unfold World.savePhase
  split
  · exact hi.toLoop
  · next a ha =>
    split
    · exact hi.toLoop.resave (a := a) (b := { a with phase := ph }) ha rfl
    · exact hi.toLoop

/-- **The daemon lets go.** -/
theorem Inv.release (hi : Inv host w)
    (hf : ∀ a, w.dir.activeAttempt = some a → Freed host w a.jobId a.attemptId) :
    Inv host { w with dir := { w.dir with activeAttempt := none } } := by
  have hlater : Later host w { w with dir := { w.dir with activeAttempt := none } } :=
    .fewer rfl rfl fun _ h => h
  refine
    { hi with
      active := fun x hx => by cases hx
      live := fun k att hatt hd hp => ?_
      asked := fun i h => ?_
      reply := fun x hx => (hi.reply x hx).later hlater (Nat.le_refl _) id
      pc := ?_ }
  · obtain ⟨a, ha, rfl⟩ := hi.live k att hatt hd hp
    have hjob : att.jobId = a.jobId := hi.job_of (hi.active a ha) hatt hd
    rcases hf a ha with h | ⟨-, ht⟩
    · exact absurd (h.terminal hi.sound.linkage hatt hjob) hp
    · exact absurd (ht att hatt hd) hp
  · obtain ⟨hm, ⟨a, ha, rfl⟩ | ho⟩ := hi.asked i h
    · refine ⟨hm, .inr ?_⟩
      rcases hf a ha with h' | ⟨hu, -⟩
      · exact h'
      · exact absurd (World.underway_iff.2 ⟨_, h, rfl⟩) (Bool.eq_false_iff.1 hu)
    · exact ⟨hm, .inr ho⟩
  · have hpc := hi.pc
    show w.pc.Sound host _
    cases hw : w.pc with
    | off => trivial
    | loop => trivial
    | work steps =>
      rw [hw] at hpc
      intro s hs
      have := hpc s hs
      cases s with
      | writeHistory h => exact this
      | removeOutbox _ _ => trivial
      | finalize _ _ => trivial
      | removeActive => exact fun x hx => by cases hx
    | await q stage =>
      rw [hw] at hpc
      refine ⟨hpc.1, ?_⟩
      have hst := hpc.2
      cases stage <;> first
        | exact ⟨hst.1, fun x hx => by cases hx⟩
        | exact fun x hx => by cases hx
        | exact hst

/-- The daemon asks, and waits for the answer under a new number. -/
theorem Inv.send (hi : Inv host w) {body : Body} {stage : Await}
    (hs : stage.Sound w ⟨w.nextCall, body⟩)
    (hb : ∀ i : Intent, body = i.body → w.Holds i) : Inv host (w.send body stage) := by
  have hflying {q : Request} (h : (w.send body stage).Flying q) :
      w.Flying q ∨ q = ⟨w.nextCall, body⟩ := by
    rcases h with hq | hq
    · rcases List.mem_cons.1 hq with rfl | hq
      · exact .inr rfl
      · exact .inl (.inl hq)
    · exact .inl (.inr hq)
  refine
    { hi with
      numbers := fun q hq => ?_
      asked := fun i h => ?_
      reply := fun x hx => ?_
      pc := ⟨Nat.lt_succ_self _, ?_⟩ }
  · rcases hflying hq with hq | rfl
    · exact Nat.lt_succ_of_lt (hi.numbers q hq)
    · exact Nat.lt_succ_self _
  · obtain ⟨q, hq, hqb⟩ := h
    rcases hflying hq with hq | rfl
    · exact hi.asked i ⟨q, hq, hqb⟩
    · obtain ⟨a, ha, rfl⟩ := hb i hqb
      exact ⟨hi.active a ha, .inl ⟨a, ha, rfl⟩⟩
  · have hr := hi.reply x hx
    refine ⟨Nat.lt_succ_of_lt hr.number, hr.gone, ?_, hr.reported, hr.ended⟩
    rintro j a t - - ⟨st, hst⟩
    simp only [World.send, Pc.await.injEq] at hst
    have := hr.number
    rw [← hst.1] at this
    exact absurd this (Nat.lt_irrefl _)
  · cases stage <;> exact hs

/-- **A claim intent is saved.** The marker is free, so no claim is left that the server may
still take up. -/
theorem Inv.claimIntent (hi : Inv host w) {j a t : String} (hpc : w.pc = .loop) {w' : World}
    (h : Connector.claimIntent w j a t = some w') : Inv host w' := by
  unfold Connector.claimIntent at h
  split at h
  · next hnone _ hjob =>
    split at h
    · cases h
    · next hfresh =>
      cases h
      have hnew : ∀ i ∈ w.intents, i.attemptId ≠ a := by
        intro i him he
        apply hfresh
        simp only [List.any_eq_true, beq_iff_eq]
        exact ⟨i, him, he⟩
      have hlater {dir : StateDir} {is : List Intent} :
          Later host w { w with dir := dir, intents := is } := .fewer rfl rfl fun _ h => h
      exact
        { hi with
          unique := fun x hx y hy he => by
            rcases List.mem_cons.1 hx with rfl | hx <;> rcases List.mem_cons.1 hy with rfl | hy
            · rfl
            · exact absurd he.symm (hnew y hy)
            · exact absurd he (hnew x hx)
            · exact hi.unique x hx y hy he
          known := fun x hx => by
            rcases List.mem_cons.1 hx with rfl | hx
            · exact ⟨_, hjob⟩
            · exact hi.known x hx
          active := fun x hx => by
            cases hx
            exact List.mem_cons_self
          store := fun k att hatt hd => by
            obtain ⟨x, hx, hrest⟩ := hi.store k att hatt hd
            exact ⟨x, List.mem_cons_of_mem _ hx, hrest⟩
          live := fun k att hatt hd hp => by
            obtain ⟨x, hx, -⟩ := hi.live k att hatt hd hp
            rw [hnone] at hx
            cases hx
          asked := fun x hx => by
            obtain ⟨hm, ⟨y, hy, -⟩ | ho⟩ := hi.asked x hx
            · rw [hnone] at hy
              cases hy
            · exact ⟨List.mem_cons_of_mem _ hm, .inr ho⟩
          reply := fun x hx => (hi.reply x hx).later hlater (Nat.le_refl _) id
          pc := by
            show w.pc.Sound host _
            rw [hpc]
            trivial }
  · cases h

theorem Inv.deliver (hi : Inv host w) (o : OutboxRecord) : Inv host (Connector.deliver w o) :=
  hi.send rfl (fun i hb => by cases hb)

theorem Same.of_active {a : ActiveAttempt} (ha : w.dir.activeAttempt = some a) :
    w.Same a.jobId a.attemptId := by
  intro x hx
  rw [ha] at hx
  cases hx
  exact ⟨rfl, rfl⟩

/-- A question about the job of the marker. -/
theorem Inv.ask (hi : Inv host w) {a : ActiveAttempt} (hs : w.Same a.jobId a.attemptId)
    {stage : Await} (hst : stage.Sound w ⟨w.nextCall, .getJob a.jobId⟩ ↔
      (Body.getJob a.jobId = .getJob a.jobId ∧ w.Same a.jobId a.attemptId)) :
    Inv host (w.send (.getJob a.jobId) stage) :=
  hi.send (hst.2 ⟨rfl, hs⟩) (fun i hb => by cases hb)

theorem find?_history {s : StateDir} {j k : String} {h : HistoryRecord}
    (hf : s.historyFile j k = some h) : h ∈ s.history ∧ h.jobId = j ∧ h.attemptId = k := by
  unfold StateDir.historyFile at hf
  have hp := List.find?_some hf
  simp only [Bool.and_eq_true, beq_iff_eq] at hp
  exact ⟨List.mem_of_find?_eq_some hf, hp⟩

theorem Inv.driveActiveAttempt (hi : Inv host w) {w' : World}
    (h : Connector.driveActiveAttempt host w = some w') : Inv host w' := by
  unfold Connector.driveActiveAttempt at h
  split at h
  · cases h
  · next a ha =>
    have hsame := Same.of_active ha
    split at h
    · cases h
      refine hi.send ⟨rfl, hsame⟩ (fun i hb => ⟨a, ha, ?_⟩)
      obtain ⟨j, k, t⟩ := i
      cases hb
      rfl
    · cases h
      exact hi.send hsame (fun i hb => by cases hb)
    · cases h
      exact hi.ask hsame Iff.rfl
    · cases h
      exact hi.ask hsame Iff.rfl
    · split at h
      · split_ifs at h
        cases h
        exact hi.deliver _
      · split at h
        · next r hr =>
          split_ifs at h
          cases h
          refine hi.toWork fun s hs => ?_
          obtain rfl := List.mem_singleton.1 hs
          intro x hx
          rw [ha] at hx
          cases hx
          obtain ⟨hmem, hj, hk⟩ := find?_history hr
          exact .inl (hj ▸ hk ▸ hi.history _ hmem)
        · cases h
    · cases h

theorem Inv.advance (hi : Inv host w) {ph : Phase} {w' : World}
    (h : Connector.advance w ph = some w') : Inv host w' := by
  unfold Connector.advance at h
  split at h
  · cases h
  · next a ha =>
    split_ifs at h
    cases h
    exact hi.resave (b := { a with phase := ph }) ha rfl

/-- A write to the outbox decides nothing here. -/
theorem Inv.setOutbox (hi : Inv host w) (os : List OutboxRecord) :
    Inv host { w with dir := { w.dir with outbox := os } } := by
  have hlater : Later host w { w with dir := { w.dir with outbox := os } } :=
    .fewer rfl rfl fun _ h => h
  exact
    { hi with
      reply := fun x hx => (hi.reply x hx).later hlater (Nat.le_refl _) id
      pc := hi.pc.later hlater (Nat.le_refl _) rfl }

theorem Inv.recordReport (hi : Inv host w) {report : ExecutionReport} {w' : World}
    (h : Connector.recordReport host w report = some w') : Inv host w' := by
  unfold Connector.recordReport at h
  split at h
  · cases h
  · split_ifs at h
    cases h
    refine Inv.setOutbox (hi.toWork fun s hs => ?_) _
    obtain rfl := List.mem_singleton.1 hs
    trivial

/-- The operator's cancel of the job of the marker is put on record, and the marker goes. -/
theorem Inv.finalizeCancelled (hi : Inv host w) {active : ActiveAttempt}
    (hs : w.Same active.jobId active.attemptId) (hout : w.Out active.jobId active.attemptId) :
    Inv host (finalizeLocalOperatorCancelled host w active) := by
  unfold finalizeLocalOperatorCancelled
  split
  · exact hi.toLoop
  · next a ha =>
    split
    · obtain ⟨hj, hk⟩ := hs a ha
      refine hi.toWork fun s hs' => ?_
      simp only [List.mem_cons, List.not_mem_nil, or_false] at hs'
      rcases hs' with rfl | rfl
      · exact hj ▸ hk ▸ hout
      · intro x hx
        rw [ha] at hx
        cases hx
        exact .inl (hj ▸ hk ▸ hout)
    · exact hi.toLoop

theorem isCancelled_state {d : DeviceDetail} (h : isCancelled d = true) : d.state = .terminal := by
  simp only [isCancelled, Bool.and_eq_true, beq_iff_eq] at h
  exact h.1

/-- The steps that end in the removal of the marker. -/
theorem Inv.removal (hi : Inv host w) {h : HistoryRecord} {j k : String}
    (hs : w.Same h.jobId h.attemptId) (hout : w.Out h.jobId h.attemptId) :
    Inv host { w with pc := .work [.writeHistory h, .removeOutbox j k, .removeActive] } := by
  refine hi.toWork fun s hs' => ?_
  simp only [List.mem_cons, List.not_mem_nil, or_false] at hs'
  rcases hs' with rfl | rfl | rfl
  · exact hout
  · trivial
  · intro x hx
    obtain ⟨hj, hk⟩ := hs x hx
    exact .inl (hj.symm ▸ hk.symm ▸ hout)

/-- **The daemon takes an answer.** -/
theorem Inv.receive (hi : Inv host w) {q : Request} {stage : Await} {answer : Answer} {valid : Bool}
    (hst : stage.Sound w q) (hr : ReplySound host w q answer) (hw : w.Awaits q) {w' : World}
    (h : Connector.receive host w valid stage answer = some w') : Inv host w' := by
  unfold Connector.receive at h
  split at h
  · cases h
    exact hi.savePhase _ _
  · next active e =>
    obtain ⟨hb, hs⟩ := hst
    have hwork (hf : Freed host w active.jobId active.attemptId) :
        Inv host { w with pc := .work [.removeActive] } := by
      refine hi.toWork fun s hs' => ?_
      obtain rfl := List.mem_singleton.1 hs'
      intro x hx
      obtain ⟨hj, hk⟩ := hs x hx
      exact hj.symm ▸ hk.symm ▸ hf
    split at h
    · cases h
      exact hwork (.inl (hr.gone _ _ _ _ hb rfl (.inl rfl)))
    · cases h
      exact hwork (.inl (hr.gone _ _ _ _ hb rfl (.inr (.inl rfl))))
    · cases h
      exact hwork (.inl (hr.gone _ _ _ _ hb rfl (.inr (.inr rfl))))
    · cases h
      exact hwork (hr.notFound _ _ _ hb rfl hw)
    · cases h
      exact hi.savePhase _ _
    · cases h
      exact hi.toLoop
  · cases h
    exact hi.savePhase _ _
  · split at h
    all_goals
      cases h
      first
        | exact hi.ask hst Iff.rfl
        | exact hi.savePhase _ _
        | exact hi.toLoop
  · next active d =>
    split at h
    · next hd =>
      cases h
      exact hi.finalizeCancelled hst.2 (hr.ended _ _ hst.1 rfl (isCancelled_state hd) _)
    · cases h
      exact hi.savePhase _ _
  · cases h
    exact hi.savePhase _ _
  · next active d =>
    split at h
    · next hd =>
      cases h
      exact hi.finalizeCancelled hst.2 (hr.ended _ _ hst.1 rfl (isCancelled_state hd) _)
    · cases h
      exact hi.toLoop
  · cases h
    exact hi.toLoop
  · next o u =>
    split at h
    · cases h
      exact hi.toLoop
    · next a ha =>
      split at h
      · next hm =>
        cases h
        refine hi.removal ?_ (hr.reported _ _ _ _ hst rfl)
        have := Same.of_active ha
        rwa [hm.1, hm.2.1] at this
      · cases h
        exact hi.toLoop
  · next o e =>
    split at h
    all_goals first
      | cases h
        exact hi.toLoop
      | next a ha =>
        split at h
        · next hm =>
          cases h
          have hs := Same.of_active ha
          rw [hm.1, hm.2] at hs
          exact hi.send ⟨rfl, hs⟩ (fun i hb => by cases hb)
        · cases h
          exact hi.toLoop
  · next o t d =>
    split at h
    · next hd =>
      cases h
      exact hi.removal hst.2 (hr.ended _ _ hst.1 rfl (isCancelled_state hd) _)
    · cases h
      exact hi.toLoop
  · cases h
    exact hi.toLoop
  · next active d =>
    split at h
    · next hd =>
      cases h
      rw [Bool.and_eq_true] at hd
      exact hi.finalizeCancelled hst.2 (hr.ended _ _ hst.1 rfl (isCancelled_state hd.1) _)
    · cases h
      exact hi.ask hst.2 Iff.rfl
  · cases h
    exact hi.ask hst.2 Iff.rfl
  · split at h
    · cases h
      exact hi.savePhase _ _
    · cases h
      exact hi.toLoop
  · cases h
    exact hi.toLoop
  · cases h

theorem Inv.writeHistory (hi : Inv host w) {h : HistoryRecord} (ho : w.Out h.jobId h.attemptId) :
    Inv host { w with dir := { w.dir with history := h :: w.dir.history } } := by
  have hlater : Later host w { w with dir := { w.dir with history := h :: w.dir.history } } :=
    .fewer rfl rfl fun _ h => h
  refine
    { hi with
      history := fun x hx => ?_
      reply := fun x hx => (hi.reply x hx).later hlater (Nat.le_refl _) id
      pc := hi.pc.later hlater (Nat.le_refl _) rfl }
  rcases List.mem_cons.1 hx with rfl | hx
  · exact ho
  · exact hi.history x hx

theorem Inv.fileStep (hi : Inv host w) {s : FileStep} (hs : s.Sound host w) :
    Inv host { w with dir := Connector.fileStep w.dir s } := by
  cases s with
  | writeHistory h => exact hi.writeHistory hs
  | removeOutbox j k => exact hi.setOutbox _
  | removeActive => exact hi.release hs
  | finalize k digest =>
    unfold Connector.fileStep
    cases ha : w.dir.activeAttempt with
    | none => exact hi
    | some a =>
      dsimp only
      split
      · exact hi.resave (a := a) ha rfl
      · exact hi

/-- **The step lemma.** -/
theorem Inv.step (hi : Inv host w) {e : Event} (hc : Calm host w e) {w' : World}
    (h : next host w e = some w') : Inv host w' := by
  cases e <;> simp only [next] at h
  case server now c =>
    split_ifs at h with hg
    cases h
    simp only [not_or, Nat.not_lt] at hg
    refine hi.store_step (exec_effect now w.redis c) ?_ hg.1
    rintro p rfl hd
    exact hg.2 (by simp [Host.isOwn, hd])
  case setEligible t b =>
    cases h
    have hlater : Later host w { w with eligible := update w.eligible t b } :=
      .fewer rfl rfl fun _ h => h
    exact
      { hi with
        reply := fun x hx => (hi.reply x hx).later hlater (Nat.le_refl _) id
        pc := hi.pc.later hlater (Nat.le_refl _) rfl }
  case duplicate i =>
    split at h
    · cases h
    · next q hq =>
      cases h
      refine @Inv.network host w hi (q :: w.requests) w.pending ?_ hi.pending
      rintro x (hx | hx)
      · rcases List.mem_cons.1 hx with rfl | hx
        · exact .inl (List.mem_of_getElem? hq)
        · exact .inl hx
      · exact .inr hx
  case lose i =>
    cases h
    exact hi.drop i
  case loseReply i =>
    cases h
    exact hi.dropReply i
  case serve i now nowMs =>
    split_ifs at h with hg
    exact hi.serve (Nat.le_of_not_lt hg) hc h
  case runClaim i now =>
    split_ifs at h with hg
    exact hi.runClaim (Nat.le_of_not_lt hg) h
  case start =>
    split_ifs at h
    cases h
    exact hi.toLoop
  case crash =>
    cases h
    exact hi.setPc trivial (by simp)
  case claimIntent j a t =>
    split_ifs at h with hpc
    exact hi.claimIntent hpc h
  case drive =>
    split_ifs at h
    exact hi.driveActiveAttempt h
  case flush i =>
    split_ifs at h
    obtain ⟨o, -, rfl⟩ := Option.map_eq_some_iff.1 h
    exact hi.deliver o
  case advance ph =>
    split_ifs at h
    exact hi.advance h
  case record report =>
    split_ifs at h
    exact hi.recordReport h
  case receive i valid =>
    split at h
    · next q stage q' answer hpc hr =>
      split_ifs at h with hq
      subst hq
      have hsound := hi.pc
      rw [hpc] at hsound
      have hrep : ReplySound host w q' answer := hi.reply _ (List.mem_of_getElem? hr)
      exact (hi.dropReply i).receive hsound.2
        (ReplySound.later (w := w) (.fewer rfl rfl fun _ h => h) (Nat.le_refl _) id hrep) ⟨stage, hpc⟩ h
    · cases h
  case timeout =>
    have hsound := hi.pc
    split at h
    · cases h
      exact hi.savePhase _ _
    · next active hpc =>
      cases h
      rw [hpc] at hsound
      exact hi.ask hsound.2.2 Iff.rfl
    · cases h
      exact hi.toLoop
    · cases h
  case work =>
    have hsound := hi.pc
    split at h
    · cases h
      exact hi.toLoop
    · next s steps hpc =>
      cases h
      rw [hpc] at hsound
      have hstep := hi.fileStep (hsound s List.mem_cons_self)
      have hrest := hstep.pc
      change w.pc.Sound host _ at hrest
      rw [hpc] at hrest
      exact hstep.toWork fun x hx => hrest x (List.mem_cons_of_mem _ hx)
    · cases h

end daemon

end Inv

/-! ### the runs -/

theorem inv_reachable {host : Host} {w : World}
    (h : ((system host).guard (Calm host)).Reachable w) : Inv host w := by
  refine h.inv ?_ (fun hi hs => hi.step hs.1 hs.2)
  rintro _ rfl
  exact Inv.init host

/-- The marker of the device is that of the live attempt `att`. -/
def Resumable (host : Host) (w : World) (att : AttemptRecordV1) : Prop :=
  ∃ a, w.dir.activeAttempt = some a ∧ a.jobId = att.jobId ∧ a.attemptId = att.attemptId ∧
    host.sha256 a.claimToken = att.claimTokenSha256

/-- **No lost claim.** Every attempt of this device that the server holds as claimed or running is
the one the device has its marker for. -/
def NoLostClaim (host : Host) (w : World) : Prop :=
  ∀ k att, w.redis.attempts k = some att → att.deviceId = host.deviceId →
    att.phase = .claimed ∨ att.phase = .running → Resumable host w att

theorem no_lost_claim {host : Host} {w : World}
    (h : ((system host).guard (Calm host)).Reachable w) : NoLostClaim host w := by
  have hi := inv_reachable h
  intro k att hatt hd hp
  have hne : att.phase ≠ .terminal := by
    rcases hp with hp | hp <;> rw [hp] <;> simp
  obtain ⟨a, ha, hk⟩ := hi.live k att hatt hd hne
  obtain ⟨i, him, hik, hij, htok⟩ := hi.store k att hatt hd
  have : i = a.intent := hi.unique i him _ (hi.active a ha) (hik.trans hk.symm)
  subst this
  exact ⟨a, ha, hij, hk.trans (hi.sound.linkage.attempt_key hatt).symm, htok⟩

/-! ### two runs -/

instance (host : Host) (w : World) (e : Event) : Decidable (Calm host w e) := by
  unfold Calm
  split <;> infer_instance

def sampleToken : String := "1111111111111111111111111111111111111111111111111111111111111111"

def sampleAttemptId : String := "att-00000000-0000-4000-8000-000000000005"

/-- A device, with SHA-256 on the token. -/
def sampleHost : Host where
  deviceId := sampleClaim.deviceId
  sha256 s := if s = sampleToken then
    "3138bb9bc78df27c473ecfd1410f7bd45ebac1f59cf3ff9cfe4db77aab7aedd3" else s
  reportJson _ := ""

def sampleBinding : EligibleBinding := ⟨sampleClaim.targetBindingId, sampleJob.workspaceId⟩

def claimSample : Event := .claimIntent sampleJob.jobId sampleAttemptId sampleToken

/-- A job is queued, and the device makes up an attempt for it and asks. -/
def asked : List Event :=
  [.server 1000 (.create sampleJob sampleJob.requestId),
   .setEligible sampleJob.targetId (some sampleBinding), .start, claimSample, .drive]

/-- The claim is granted, its reply is lost with the daemon, and the next daemon asks again. -/
def resumed : List Event :=
  asked ++ [.duplicate 0, .serve 0 2000 2000, .runClaim 0 2000, .crash, .start, .drive,
    .serve 0 3000 3000, .runClaim 0 3000, .receive 0 true]

def afterResumed : Option World :=
  resumed.foldlM (fun w e => if Calm sampleHost w e then next sampleHost w e else none) World.init

set_option maxRecDepth 10000 in
theorem afterResumed_isSome : afterResumed.isSome = true := by decide +kernel

theorem afterResumed_reachable : ((system sampleHost).guard (Calm sampleHost)).Reachable
    (afterResumed.get afterResumed_isSome) :=
  .run (.init rfl) (LTS.run_guard_ofOption _ (Option.some_get afterResumed_isSome).symm)

/-- The attempt the two runs end with. -/
def claimedHere (now : Nat) : AttemptRecordV1 :=
  { claimedSampleAttempt with
    attemptId := sampleAttemptId, claimTokenSha256 := sampleHost.sha256 sampleToken,
    claimedAtMs := now }

set_option maxRecDepth 10000 in
theorem afterResumed_attempts :
    (afterResumed.get afterResumed_isSome).redis.attempts sampleAttemptId =
      some (claimedHere 2000) := by
  decide +kernel

theorem no_lost_claim_resumed :
    Resumable sampleHost (afterResumed.get afterResumed_isSome) (claimedHere 2000) :=
  no_lost_claim afterResumed_reachable sampleAttemptId _ afterResumed_attempts rfl (.inl rfl)

/-- The first request is slow. The second is turned away while the binding is disabled, the daemon
lets go, and the first arrives when the binding is enabled again. -/
def abandoned : List Event :=
  asked ++ [.timeout, .drive, .setEligible sampleJob.targetId none, .serve 0 2000 2000,
    .receive 0 true, .work, .setEligible sampleJob.targetId (some sampleBinding),
    .serve 0 3000 3000, .runClaim 0 3000]

set_option maxRecDepth 10000 in
theorem abandoned_isSome : (abandoned.foldlM (next sampleHost) World.init).isSome = true := by
  decide +kernel

theorem abandoned_reachable : (system sampleHost).Reachable
    ((abandoned.foldlM (next sampleHost) World.init).get abandoned_isSome) :=
  .run (.init rfl) (LTS.run_ofOption _ (Option.some_get abandoned_isSome).symm)

set_option maxRecDepth 10000 in
theorem abandoned_attempts :
    ((abandoned.foldlM (next sampleHost) World.init).get abandoned_isSome).redis.attempts
      sampleAttemptId = some (claimedHere 3000) := by
  decide +kernel

set_option maxRecDepth 10000 in
theorem abandoned_marker : ((abandoned.foldlM (next sampleHost) World.init).get
    abandoned_isSome).dir.activeAttempt = none := by
  decide +kernel

theorem claim_lost : ¬ ∀ host w, (system host).Reachable w → NoLostClaim host w := by
  intro h
  obtain ⟨a, ha, -⟩ := h sampleHost _ abandoned_reachable sampleAttemptId _ abandoned_attempts rfl
    (.inl rfl)
  rw [abandoned_marker] at ha
  cases ha

end Ceo.Connector
