import Ceo.Jobs.Lifecycle
import Ceo.Jobs.Passed
import Ceo.Jobs.Report

/-!
# Terminal jobs are final

Once a job has ended no script writes its record again, nor anything of its
attempt but the result; a caller that does not own an attempt changes
nothing; and a report that disagrees with the one an operator cancel left is
refused.
-/

namespace Ceo.Jobs

open Ceo.Lib Function

/-! ### stored records are what cjson wrote -/

/-- Encoding a stored record again changes nothing. -/
structure Encoded (r : Redis) : Prop where
  job {id : String} {job : JobRecordV2} : r.jobs id = some job → Cjson.encodeJob job = job
  attempt {id : String} {att : AttemptRecordV1} :
    r.attempts id = some att → Cjson.encodeAttempt att = att

namespace Encoded

variable {r r' : Redis}

theorem empty : Encoded Redis.empty where
  job h := by simp [Redis.empty] at h
  attempt h := by simp [Redis.empty] at h

theorem write (E : Encoded r)
    (jobs : r'.jobs = r.jobs ∨ ∃ k j, r'.jobs = update r.jobs k (some (Cjson.encodeJob j)))
    (attempts : r'.attempts = r.attempts ∨
      ∃ k a, r'.attempts = update r.attempts k (some (Cjson.encodeAttempt a))) : Encoded r' := by
  constructor
  · intro id job h
    rcases jobs with hj | ⟨k, j, hj⟩
    · exact E.job (hj ▸ h)
    · rw [hj, update_eq_some] at h
      rcases h with ⟨-, rfl⟩ | ⟨-, h⟩
      · exact Cjson.encodeJob_idem j
      · exact E.job h
  · intro id att h
    rcases attempts with ha | ⟨k, a, ha⟩
    · exact E.attempt (ha ▸ h)
    · rw [ha, update_eq_some] at h
      rcases h with ⟨-, rfl⟩ | ⟨-, h⟩
      · exact Cjson.encodeAttempt_idem a
      · exact E.attempt h

theorem step (E : Encoded r) {now : Nat} {c : Call} (e : Effect now r r' c) : Encoded r' := by
  cases e with
  | frame jobs attempts => exact E.write (.inl jobs) (.inl attempts)
  | created entry accepted fresh jobs attempts => exact E.write (.inr ⟨_, _, jobs⟩) (.inl attempts)
  | claimed job job_at jobId workspace target isNew queued live fresh unfenced jobs attempts =>
    exact E.write (.inr ⟨_, _, jobs⟩) (.inr ⟨_, _, attempts⟩)
  | started job att owns attemptId active phase jobs attempts =>
    exact E.write (.inl jobs) (.inr ⟨_, _, attempts⟩)
  | reported job att owns attemptId active phase jobs attempts =>
    exact E.write (.inr ⟨_, _, jobs⟩) (.inr ⟨_, _, attempts⟩)
  | cancelledActive job att job_at active attempt_at expected jobId latest phase jobs attempts =>
    exact E.write (.inr ⟨_, _, jobs⟩) (.inr ⟨_, _, attempts⟩)
  | cancelledQueued job job_at queued jobs attempts =>
    exact E.write (.inr ⟨_, _, jobs⟩) (.inl attempts)
  | recorded job att owns jobs attempts => exact E.write (.inl jobs) (.inr ⟨_, _, attempts⟩)

end Encoded

/-- The two invariants of every reachable store. -/
structure Sound (r : Redis) : Prop where
  linkage : Linkage r
  encoded : Encoded r

namespace Sound

variable {r r' : Redis}

theorem scripts_step {a : Nat × Call} (S : Sound r) (h : scripts.Step r a r') : Sound r' := by
  obtain rfl : r' = exec a.1 r a.2 := h
  exact ⟨S.linkage.step (exec_effect _ _ _), S.encoded.step (exec_effect _ _ _)⟩

theorem run {l : List (Nat × Call)} (S : Sound r) (h : scripts.Run r l r') : Sound r' :=
  h.inv scripts_step S

end Sound

theorem sound_reachable {r : Redis} (h : scripts.Reachable r) : Sound r := by
  refine h.inv ?_ Sound.scripts_step
  rintro _ rfl
  exact ⟨Linkage.empty, Encoded.empty⟩

/-! ### what a terminal job keeps -/

/-- The second attempt record is the first, up to its result. -/
def SameButResult (att att' : AttemptRecordV1) : Prop := att' = { att with result := att'.result }

/-- Every job that has ended keeps its record, and its attempt all but the result. -/
def Settled (r r' : Redis) : Prop :=
  ∀ id job, r.jobs id = some job → job.status = .terminal →
    r'.jobs id = some job ∧
    ∀ aid att, job.latestAttemptId = some aid → r.attempts aid = some att →
      ∃ att', r'.attempts aid = some att' ∧ SameButResult att att'

theorem Settled.refl (r : Redis) : Settled r r :=
  fun _ _ hj _ => ⟨hj, fun _ att _ ha => ⟨att, ha, rfl⟩⟩

theorem Settled.trans {r s t : Redis} (h1 : Settled r s) (h2 : Settled s t) : Settled r t := by
  intro id job hj hs
  obtain ⟨hj1, ha1⟩ := h1 id job hj hs
  obtain ⟨hj2, ha2⟩ := h2 id job hj1 hs
  refine ⟨hj2, fun aid att hl ha => ?_⟩
  obtain ⟨b, hb, hab⟩ := ha1 aid att hl ha
  obtain ⟨c, hc, hbc⟩ := ha2 aid b hl hb
  refine ⟨c, hc, ?_⟩
  unfold SameButResult at *
  rw [hbc, hab]

/-- Writes to records of no terminal job settle nothing. -/
theorem Settled.of_live {r r' : Redis} {k a : String}
    (jobs : ∀ id, id ≠ k → r'.jobs id = r.jobs id)
    (attempts : ∀ id, id ≠ a → r'.attempts id = r.attempts id)
    (live : ∀ job, r.jobs k = some job → job.status ≠ .terminal)
    (apart : ∀ id job, r.jobs id = some job → job.status = .terminal → id ≠ k →
      job.latestAttemptId ≠ some a) : Settled r r' := by
  intro id job hj hs
  have hk : id ≠ k := by
    rintro rfl
    exact live job hj hs
  refine ⟨by rw [jobs id hk, hj], fun aid att hl ha => ⟨att, ?_, rfl⟩⟩
  have hne : aid ≠ a := by
    rintro rfl
    exact apart id job hj hs hk hl
  rw [attempts aid hne, ha]

theorem Linkage.apart {r : Redis} (L : Linkage r) {k : String} {job : JobRecordV2}
    {att : AttemptRecordV1} (hj : r.jobs k = some job) (hl : Latest r job att) {id : String}
    {j : JobRecordV2} (h : r.jobs id = some j) (hne : id ≠ k) :
    j.latestAttemptId ≠ some att.attemptId := by
  intro heq
  obtain ⟨b, hb, hlb⟩ := L.names h heq
  have hst := hlb.stored
  rw [hb, hl.stored] at hst
  obtain rfl := Option.some.inj hst
  exact hne (by rw [← L.job_key h, ← hlb.ids.jobId, hl.ids.jobId, L.job_key hj])

theorem encodeAttempt_recorded {att : AttemptRecordV1} (h : Cjson.encodeAttempt att = att)
    (now : Nat) (result : PersistedJobResult) :
    SameButResult att (Cjson.encodeAttempt (recordedAttempt now att result)) := by
  obtain ⟨v, aid, jid, uid, wid, tid, did, bid, tok, ph, cl, st, rep, res⟩ := att
  simp only [Cjson.encodeAttempt, AttemptRecordV1.mk.injEq, true_and] at h
  simp only [SameButResult, recordedAttempt, Cjson.encodeAttempt, AttemptRecordV1.mk.injEq, and_true,
    true_and]
  exact ⟨h.1, h.2.1, h.2.2.1, h.2.2.2.1⟩

/-- **One call settles what has ended.** -/
theorem Sound.settled {r r' : Redis} (S : Sound r) {now : Nat} {c : Call}
    (e : Effect now r r' c) : Settled r r' := by
  have L := S.linkage
  cases e with
  | frame jobs attempts =>
    intro id job hj hs
    exact ⟨jobs ▸ hj, fun aid att hl ha => ⟨att, attempts ▸ ha, rfl⟩⟩
  | @created job _ entry accepted fresh jobs attempts =>
    intro id j hj hs
    refine ⟨?_, fun aid att hl ha => ⟨att, attempts ▸ ha, rfl⟩⟩
    rw [jobs, update_of_ne, hj]
    rintro rfl
    simp [fresh] at hj
  | @claimed p job job_at jobId workspace target isNew queued live fresh unfenced jobs attempts =>
    refine Settled.of_live (k := p.jobId) (a := p.attemptId) ?_ ?_ ?_ ?_
    · intro id h
      rw [jobs, update_of_ne h]
    · intro id h
      rw [attempts, update_of_ne h]
    · intro j hj hs
      rw [job_at] at hj
      obtain rfl := Option.some.inj hj
      simp [queued] at hs
    · intro id j hj hs hne heq
      obtain ⟨b, hid, hb⟩ := L.names hj heq
      have hst := hb.stored
      simp [hid, fresh] at hst
  | @started p job att owns attemptId active phase jobs attempts =>
    have hl := L.owns_latest owns
    refine Settled.of_live (k := p.jobId) (a := p.attemptId) ?_ ?_ ?_ ?_
    · intro id h
      rw [jobs]
    · intro id h
      rw [attempts, update_of_ne h]
    · intro j hj hs
      rw [owns.job_at] at hj
      obtain rfl := Option.some.inj hj
      simp [active] at hs
    · intro id j hj hs hne
      exact attemptId ▸ L.apart owns.job_at hl hj hne
  | @reported p rep job att owns attemptId active phase jobs attempts =>
    have hl := L.owns_latest owns
    refine Settled.of_live (k := p.jobId) (a := p.attemptId) ?_ ?_ ?_ ?_
    · intro id h
      rw [jobs, update_of_ne h]
    · intro id h
      rw [attempts, update_of_ne h]
    · intro j hj hs
      rw [owns.job_at] at hj
      obtain rfl := Option.some.inj hj
      simp [active] at hs
    · intro id j hj hs hne
      exact attemptId ▸ L.apart owns.job_at hl hj hne
  | @cancelledActive p job att job_at active attempt_at expected jobId latest phase jobs attempts =>
    obtain ⟨j0, hj0, hl⟩ := L.latest_of_owned attempt_at
    have hk : job.jobId = p.jobId := L.job_key job_at
    rw [jobId, hk, job_at] at hj0
    obtain rfl := Option.some.inj hj0
    refine Settled.of_live (k := p.jobId) (a := att.attemptId) ?_ ?_ ?_ ?_
    · intro id h
      rw [jobs, update_of_ne h]
    · intro id h
      rw [attempts, update_of_ne (L.attempt_key attempt_at ▸ h)]
    · intro j hj hs
      rw [job_at] at hj
      obtain rfl := Option.some.inj hj
      simp [active] at hs
    · intro id j hj hs hne
      exact L.apart job_at hl hj hne
  | @cancelledQueued p job job_at queued jobs attempts =>
    intro id j hj hs
    refine ⟨?_, fun aid att hl ha => ⟨att, attempts ▸ ha, rfl⟩⟩
    rw [jobs, update_of_ne, hj]
    rintro rfl
    rw [job_at] at hj
    obtain rfl := Option.some.inj hj
    simp [queued] at hs
  | @recorded p result mode job att owns jobs attempts =>
    intro id j hj hs
    refine ⟨jobs ▸ hj, fun aid a hl ha => ?_⟩
    by_cases haid : aid = p.attemptId
    · subst haid
      rw [owns.attempt_at] at ha
      obtain rfl := Option.some.inj ha
      -- the rest of the record was encoded when it was stored
      exact ⟨_, by rw [attempts, update_self],
        encodeAttempt_recorded (S.encoded.attempt owns.attempt_at) now result⟩
    · exact ⟨a, by rw [attempts, update_of_ne haid, ha], rfl⟩

theorem Sound.settled_run {r r' : Redis} {l : List (Nat × Call)} (S : Sound r)
    (h : scripts.Run r l r') : Settled r r' := by
  refine h.rel (I := Sound) (R := Settled) Settled.refl Settled.trans Sound.scripts_step ?_ S
  intro s a t hS hs
  obtain rfl : t = exec a.1 s a.2 := hs
  exact hS.settled (exec_effect a.1 s a.2)

/-! ### callers that do not own the attempt -/

/-- The caller is not the device, or has not the token, the attempt was claimed with. -/
def Foreign (p : AttemptParams) (att : AttemptRecordV1) : Prop :=
  att.deviceId ≠ p.deviceId ∨ att.claimTokenSha256 ≠ p.claimTokenSha256

theorem identityMatches_foreign {p : AttemptParams} {att : AttemptRecordV1} (f : Foreign p att)
    (job : JobRecordV2) : identityMatches att job p.argv = false := by
  unfold identityMatches AttemptParams.argv
  rcases f with h | h <;> simp [h]

section foreign

variable {r : Redis} {p : AttemptParams} {att : AttemptRecordV1}

theorem startJob_foreign (ha : r.attempts p.attemptId = some att) (f : Foreign p att) (now : Nat) :
    (startJob now p r).2 = r := by
  have h : (v2StartJobScript now p.keys p.argv r).2 = r := by
    unfold v2StartJobScript
    cases r.jobs p.keys.job with
    | none => rfl
    | some job =>
      simp only [show r.attempts p.keys.attempt = some att from ha, identityMatches_foreign f]
      split_ifs <;> first | rfl | contradiction
  unfold startJob
  rcases hs : v2StartJobScript now p.keys p.argv r with ⟨_ | _, r'⟩ <;> simpa [hs] using h

theorem reportJob_foreign (ha : r.attempts p.attemptId = some att) (f : Foreign p att) (now : Nat)
    (rep : ExecutionReport) : (reportJob now p rep r).2 = r := by
  have h : (v2ReportJobScript now p.keys p.argv rep r).2 = r := by
    unfold v2ReportJobScript
    cases r.jobs p.keys.job with
    | none => rfl
    | some job =>
      simp only [show r.attempts p.keys.attempt = some att from ha, identityMatches_foreign f]
      split_ifs <;> first | rfl | contradiction
  unfold reportJob
  rcases hs : v2ReportJobScript now p.keys p.argv rep r with ⟨_ | _, r'⟩ <;> simpa [hs] using h

theorem recordJobResult_foreign (ha : r.attempts p.attemptId = some att) (f : Foreign p att)
    (now : Nat) (result : PersistedJobResult) (mode : DeliveryMode) :
    (recordJobResult now p result mode r).2 = r := by
  have h : (v2RecordResultScript now p.keys p.argv result mode r).2 = r := by
    unfold v2RecordResultScript
    cases r.jobs p.keys.job with
    | none => rfl
    | some job =>
      simp only [show r.attempts p.keys.attempt = some att from ha]
      by_cases hid : att.jobId ≠ job.jobId ∨ job.latestAttemptId ≠ some att.attemptId
      · rw [if_pos hid]
      · have hown : att.deviceId ≠ p.argv.deviceId ∨
            att.claimTokenSha256 ≠ p.argv.claimTokenSha256 := f
        rw [if_neg hid, if_pos hown]
  unfold recordJobResult
  rcases hs : v2RecordResultScript now p.keys p.argv result mode r with ⟨_ | _, r'⟩ <;>
    simpa [hs] using h

end foreign

/-! ### reports after a cancel -/

/-- The owner of an attempt. -/
def ownerParams (att : AttemptRecordV1) : AttemptParams :=
  { jobId := att.jobId
    attemptId := att.attemptId
    deviceId := att.deviceId
    claimTokenSha256 := att.claimTokenSha256 }

/-- The owner's report on an attempt that has one is compared with it, and nothing is written. -/
theorem reportJob_terminal {r : Redis} {job : JobRecordV2} {att : AttemptRecordV1}
    {ar : PersistedExecutionReport} {rep : ExecutionReport} (hj : r.jobs att.jobId = some job)
    (hs : job.status = .terminal) (hl : Latest r job att) (shape : attemptShapeOk att = true)
    (hp : att.phase = .terminal) (har : att.report = some ar)
    (ok : Guard.All (executionReportSchema rep)) (hne : ar.toExecutionReport ≠ rep) (now : Nat) :
    reportJob now (ownerParams att) rep r =
      (.error (.reportConflict "Terminal report does not match previously recorded report."), r) := by
  have hid : identityMatches att job (ownerParams att).argv = true := by
    simp [identityMatches, ownerParams, AttemptParams.argv, hl.ids.jobId, hl.ids.workspaceId,
      hl.ids.targetId]
  have hsem : semMatch ar rep = false := by
    rw [Bool.eq_false_iff]
    exact fun h => hne ((semMatch_iff ar rep).1 h)
  have h : v2ReportJobScript now (ownerParams att).keys (ownerParams att).argv rep r =
      (.error .reportConflict, r) := by
    unfold v2ReportJobScript
    simp only [show r.jobs (ownerParams att).keys.job = some job from hj,
      show r.attempts (ownerParams att).keys.attempt = some att from hl.stored, shape, hid,
      reportInvariants_of_schema ok, hs, hp, har, reportReplay, hsem, Bool.not_true]
    simp [hl.latest, ownerParams, AttemptParams.argv]
  simp [reportJob, h, reportError]

theorem sound_of_coordinated {r : Redis} (h : coordinated.Reachable r) : Sound r :=
  sound_reachable h.of_guard

/-- The effect of an operator cancel on the job it found active. -/
theorem cancelJob_active {r : Redis} (L : Linkage r) (now : Nat) {p : CancelParams}
    {job : JobRecordV2} {att : AttemptRecordV1} (hj : r.jobs p.jobId = some job)
    (active : job.status = .active) (hl : Latest r job att)
    (expected : p.expectedAttemptId = some att.attemptId) (hne : att.attemptId ≠ "") :
    cancelJob now p r =
      (.ok ⟨.cancelled, .cancelled, .cancelled,
          (cancelReport now att p.cancelReceiptSha256).businessOutcome, some att.attemptId, now⟩,
        (r.setAttempt att.attemptId (cancelledAttempt now att p)).setJob p.jobId
          (cancelledJob now job p)) := by
  have hkey : cancelAttemptKey p.expectedAttemptId = att.attemptId := by
    simp [cancelAttemptKey, expected, hne]
  have hph := L.active_phase hj active hl
  have hst := L.staged hl.stored
  have h : cancelScript now p r =
      (.ok ⟨.cancelled, .cancelled, .cancelled,
          (cancelReport now att p.cancelReceiptSha256).businessOutcome, some att.attemptId, now⟩,
        (r.setAttempt att.attemptId (cancelledAttempt now att p)).setJob p.jobId
          (cancelledJob now job p)) := by
    unfold AttemptRecordV1.Staged at hst
    unfold cancelScript v2CancelJobScript
    simp only [hj, hkey, hl.stored, active]
    have hexp : p.expectedAttemptId.getD "" = att.attemptId := by rw [expected]; rfl
    cases hp : att.phase with
    | claimed => simp [hexp, hl.ids.jobId, hl.latest, cancelledAttempt, cancelledJob]
    | running =>
      simp only [hp] at hst
      simp [hexp, hl.ids.jobId, hl.latest, cancelledAttempt, cancelledJob, hst.1]
    | terminal => exact absurd hp hph
  simp [cancelJob, h]

/-- A cancel that goes through on an active job was given the attempt the job names. -/
theorem cancelJob_expected {r : Redis} {now : Nat} {p : CancelParams} {job : JobRecordV2}
    {attemptId : String} (hj : r.jobs p.jobId = some job) (active : job.status = .active)
    (latest : job.latestAttemptId = some attemptId) (hne : attemptId ≠ "")
    {outcome : JobCancelOutcome} (ok : (cancelJob now p r).1 = .ok outcome) :
    p.expectedAttemptId = some attemptId := by
  by_contra hexp
  have hget : attemptId ≠ p.expectedAttemptId.getD "" := by
    cases he : p.expectedAttemptId with
    | none => simpa using hne
    | some b =>
      rintro rfl
      exact hexp (by rw [he])
  have h : cancelScript now p r = (.error .cancelRace, r) := by
    unfold cancelScript v2CancelJobScript
    simp [hj, active, latest, hget]
  simp [cancelJob, h] at ok

/-- **Terminal jobs are final and attempts are their owner's.** Whatever is
called later, a terminal job keeps its record and its attempt all but the
result; a start, report or result of another device or with another token
writes nothing; and once an operator has cancelled an active job, every
well-formed report of the owner that differs from the stored one is answered
with a conflict and writes nothing. -/
theorem terminal_final {r : Redis} (h : scripts.Reachable r) :
    (∀ r' l, scripts.Run r l r' → Settled r r') ∧
    (∀ p att now rep result mode, r.attempts p.attemptId = some att → Foreign p att →
      (startJob now p r).2 = r ∧ (reportJob now p rep r).2 = r ∧
        (recordJobResult now p result mode r).2 = r) ∧
    (coordinated.Reachable r → ∀ now p job att outcome, r.jobs p.jobId = some job →
      job.status = .active → job.latestAttemptId = some att.attemptId →
      r.attempts att.attemptId = some att → (cancelJob now p r).1 = .ok outcome →
      ∃ ar, ar.executionStatus = .cancelled ∧
        ∀ r' l, scripts.Run (cancelJob now p r).2 l r' →
          (r'.attempts att.attemptId).bind (·.report) = some ar ∧
          ∀ t rep, Guard.All (executionReportSchema rep) → ar.toExecutionReport ≠ rep →
            reportJob t (ownerParams att) rep r' = (.error (.reportConflict
              "Terminal report does not match previously recorded report."), r')) := by
  have S := sound_reachable h
  refine ⟨fun r' l hr => S.settled_run hr, ?_, ?_⟩
  · intro p att now rep result mode ha f
    exact ⟨startJob_foreign ha f now, reportJob_foreign ha f now rep,
      recordJobResult_foreign ha f now result mode⟩
  · intro hc now p job att outcome hj active latest stored ok
    have L := S.linkage
    have I := idsOk_reachable hc
    have hne : att.attemptId ≠ "" := by
      intro he
      have hid := (I _ _ stored).attemptId
      rw [he] at hid
      exact absurd hid (by decide)
    obtain ⟨b, hb, hl⟩ := L.names hj latest
    have hst := hl.stored
    rw [hb, stored] at hst
    obtain rfl := Option.some.inj hst
    have hcancel := cancelJob_active L now hj active hl
      (cancelJob_expected hj active latest hne ok) hne
    have hk : job.jobId = p.jobId := L.job_key hj
    have h1 : scripts.Step r (now, .cancel p) (cancelJob now p r).2 := rfl
    have S1 := S.scripts_step h1
    rw [hcancel] at S1 ⊢
    refine ⟨Cjson.encodeReport (cancelReport now att p.cancelReceiptSha256), rfl, ?_⟩
    intro r' l hr
    have S2 := S1.run hr
    -- the pair the cancel wrote settles
    obtain ⟨hj2, hatt2⟩ := S1.settled_run hr p.jobId (Cjson.encodeJob (cancelledJob now job p))
      (by simp) (by simp [cancelledJob])
    obtain ⟨att2, ha2, hsame⟩ := hatt2 att.attemptId
      (Cjson.encodeAttempt (cancelledAttempt now att p)) (by simp [cancelledJob, latest])
      (by simp)
    unfold SameButResult at hsame
    have hrep : att2.report = some (Cjson.encodeReport (cancelReport now att p.cancelReceiptSha256)) := by
      rw [hsame]
      simp [encodeAttempt_report, cancelledAttempt]
    refine ⟨by simp [ha2, hrep], ?_⟩
    intro t rep hok hdiff
    have hown : ownerParams att2 = ownerParams att := by
      rw [hsame]
      simp [ownerParams, cancelledAttempt]
    have hid2 : att2.attemptId = att.attemptId := S2.linkage.attempt_key ha2
    have hjob2 : att2.jobId = p.jobId := by
      rw [hsame]
      simp [cancelledAttempt, hl.ids.jobId, hk]
    have hlat2 : (Cjson.encodeJob (cancelledJob now job p)).latestAttemptId =
        some att.attemptId := by simp [cancelledJob, latest]
    obtain ⟨b, hb2, hl2⟩ := S2.linkage.names hj2 hlat2
    have hst2 := hl2.stored
    rw [hb2, ha2] at hst2
    obtain rfl := Option.some.inj hst2
    have shape : attemptShapeOk att2 = true := by
      have hsh := I.shapeOk L stored
      rw [hsame]
      unfold attemptShapeOk at hsh ⊢
      simp only [Bool.and_eq_true, beq_iff_eq, bne_iff_ne, ne_eq] at hsh
      simp [cancelledAttempt, Cjson.encodeAttempt, hsh.1.1.1.1, hsh.1.1.1.2, hsh.1.1.2,
        Cjson.num_of_lt]
    rw [← hown]
    exact reportJob_terminal (hjob2 ▸ hj2) (by simp [cancelledJob]) hl2 shape
      (by rw [hsame]; simp [cancelledAttempt]) hrep hok hdiff t

/-- The attempt of `sampleJob` in the store `claimedCalls` leave. -/
def claimedSampleAttempt : AttemptRecordV1 := claimedAttempt 2000 claimedSample sampleClaim

def sampleCancel : CancelParams :=
  { jobId := sampleJob.jobId
    expectedAttemptId := some sampleClaim.attemptId
    expectedTargetId := sampleJob.targetId
    deviceId := sampleClaim.deviceId
    reason := cancelReason sampleJob.userId
    cancelReceiptSha256 := "2222222222222222222222222222222222222222222222222222222222222222" }

set_option maxRecDepth 10000 in
theorem replay_claimed_attempts :
    (replay claimedCalls).attempts sampleClaim.attemptId = some claimedSampleAttempt := by
  decide +kernel

theorem terminal_final_cancelled :
    ∃ ar, ar.executionStatus = .cancelled ∧
      ∀ r' l, scripts.Run (cancelJob 3000 sampleCancel (replay claimedCalls)).2 l r' →
        (r'.attempts sampleClaim.attemptId).bind (·.report) = some ar ∧
        ∀ t rep, Guard.All (executionReportSchema rep) → ar.toExecutionReport ≠ rep →
          reportJob t (ownerParams claimedSampleAttempt) rep r' = (.error (.reportConflict
            "Terminal report does not match previously recorded report."), r') := by
  have S := sound_reachable (replay_reachable claimedCalls)
  obtain ⟨b, hb, hl⟩ := S.linkage.names replay_claimed_jobs rfl
  have hst := hl.stored
  rw [hb, replay_claimed_attempts] at hst
  obtain rfl := Option.some.inj hst
  have hcancel := cancelJob_active S.linkage 3000 (p := sampleCancel) replay_claimed_jobs rfl
    hl rfl (by decide)
  exact (terminal_final (replay_reachable claimedCalls)).2.2
    (coordinated_replay claimedCalls_passed) 3000 sampleCancel claimedSample claimedSampleAttempt _
    replay_claimed_jobs rfl rfl replay_claimed_attempts (congrArg Prod.fst hcancel)

end Ceo.Jobs
