import Ceo.Attempt.Loadable

/-!
# Reports pass their own checks

A pass over a recorded outcome builds a report and checks it before it goes to
the outbox. What the daemon fixes of it always passes: the stages and codes of
errors, the executor, the receipt. What it takes over is not bounded where it
is recorded: the texts of the adapter, its version, and a result that was found
without a dispatch.
-/

namespace Ceo.Attempt

open Ceo.Lib Ceo.Jobs
open Ceo.Connector (Phase)

/-! ### what is on record -/

/-- What the daemon sees to when it records an outcome. -/
structure Recorded (c : ActiveAttempt) : Prop where
  executorType : c.exec.executorType = "orca"
  coded : Coded c.exec.runtimeError
  known : ∀ k, c.exec.runtimeCompletionKind = some k → k ∈ knownKinds
  timed : c.exec.runtimeCompletionKind.isSome = true → c.exec.runtimeCompletedAtMs.isSome = true
  outcome : c.phase = .outcomeRecorded → c.exec.runtimeCompletionKind.isSome = true

section

variable {dev : Device} {P : Policy World Call Reply Project} {Init : World → Prop}
  {w : World} {c a : ActiveAttempt} {exec : AttemptExecutorState}

theorem Coded.none : Coded none := fun e he => by cases he

theorem Coded.some {e : ExecutionReportError} (h : (e.stage, e.code) ∈ recordedCodes) :
    Coded (some e) := fun e' he => by
  cases he
  exact h

theorem Completes.recorded {log : List Entry} {kind : String} {err : Option ExecutionReportError}
    (h : Completes log c kind err) : kind ∈ knownKinds ∧ Coded err := by
  cases h with
  | managed => exact ⟨by decide, .none⟩
  | timedOut h | done h | idle h => exact ⟨by decide, h⟩
  | interrupted reason hw => exact ⟨by decide, .some (by show ("runtime", "TERMINAL_EXITED") ∈ _; decide)⟩

/-- An outcome with a known kind and a known code. -/
theorem recorded_complete {x : AttemptExecutorState} {kind : String} {now : Int}
    {err : Option ExecutionReportError} (ht : x.executorType = "orca") (hk : kind ∈ knownKinds)
    (he : Coded err) :
    (x.complete kind now err).executorType = "orca" ∧ Coded (x.complete kind now err).runtimeError ∧
      (∀ k, (x.complete kind now err).runtimeCompletionKind = some k → k ∈ knownKinds) ∧
      ((x.complete kind now err).runtimeCompletionKind.isSome = true →
        (x.complete kind now err).runtimeCompletedAtMs.isSome = true) := by
  refine ⟨ht, he, fun k h => ?_, fun _ => rfl⟩
  cases h
  exact hk

theorem recoverRunning_isSome (x : AttemptExecutorState) (captured : Bool) (now : Int) :
    (recoverRunning x captured now).runtimeCompletionKind.isSome = true := by
  unfold recoverRunning
  split_ifs with h
  · exact h
  all_goals rfl

theorem mapExecutor_complete {c : ActiveAttempt} {x : AttemptExecutorState} {kind : String}
    {now : Int} {err : Option ExecutionReportError} (hx : c.executor = some x) :
    (c.mapExecutor (·.complete kind now err)).exec = x.complete kind now err := by
  unfold ActiveAttempt.exec
  rw [executor_mapExecutor hx]
  rfl

/-- An outcome is recorded with its kind. -/
theorem Edit.outcome (h : Edit dev w c a) (hv : c.Valid dev.toHost) (hp : a.phase = .outcomeRecorded) :
    a.exec.runtimeCompletionKind.isSome = true := by
  cases h with
  | notReady => rfl
  | exhaust hp' =>
    obtain ⟨x, hx, -⟩ := executor_of_valid hv (by rw [hp']; rfl)
    exact congrArg _ (congrArg AttemptExecutorState.runtimeCompletionKind (mapExecutor_complete hx))
  | complete hp' =>
    obtain ⟨x, hx, -⟩ := executor_of_valid hv (by rw [hp']; rfl)
    exact congrArg _ (congrArg AttemptExecutorState.runtimeCompletionKind (mapExecutor_complete hx))
  | terminalize hp' detail captured now hcap hl hd =>
    show (AttemptExecutorState.runtimeCompletionKind (if serverRunning detail then _ else _)).isSome = _
    split_ifs
    · exact recoverRunning_isSome _ _ _
    · rfl
  | advance hA => cases hA <;> cases hp
  | ready hp' prep b target hl ha =>
    revert hp
    unfold ActiveAttempt.ready
    cases prep.dispatch <;> (intro hp; cases hp)
  | clock hp' | identify hp' | count hp' | reject hp' | doubt hp' | working hp' | seen hp' =>
    exact absurd (hp'.symm.trans hp) (by decide)
  | _ => cases hp

theorem Edit.recorded (h : Edit dev w c a) (hv : c.Valid dev.toHost) (hr : Recorded c) :
    Recorded a := by
  have hx := h.elim (p := fun x _ => x.executorType = "orca" ∧ Coded x.runtimeError ∧
    (∀ k, x.runtimeCompletionKind = some k → k ∈ knownKinds) ∧
    (x.runtimeCompletionKind.isSome = true → x.runtimeCompletedAtMs.isSome = true)) fun x ph hx => ?_
  · exact ⟨hx.1, hx.2.1, hx.2.2.1, hx.2.2.2, h.outcome hv⟩
  have hc : c.exec.executorType = "orca" ∧ Coded c.exec.runtimeError ∧
    (∀ k, c.exec.runtimeCompletionKind = some k → k ∈ knownKinds) ∧
    (c.exec.runtimeCompletionKind.isSome = true → c.exec.runtimeCompletedAtMs.isSome = true) :=
    ⟨hr.executorType, hr.coded, hr.known, hr.timed⟩
  cases hx with
  | notReady hp i now reason =>
    refine recorded_complete hr.executorType (by decide) (.some ?_)
    show ("prepare", "AGENT_NOT_READY") ∈ recordedCodes
    decide
  | exhaust hp now =>
    refine recorded_complete hr.executorType (by decide) (.some ?_)
    show ("dispatch", "DISPATCH_REJECTED") ∈ recordedCodes
    decide
  | complete hp kind now err hC => exact recorded_complete hr.executorType hC.recorded.1 hC.recorded.2
  | running hp captured now =>
    unfold recoverRunning
    split_ifs
    · exact hc
    · exact recorded_complete hr.executorType (by decide) .none
    · refine recorded_complete hr.executorType (by decide) (.some ?_)
      show ("runtime", "RECOVERY_TERMINALIZED") ∈ recordedCodes
      decide
    · refine recorded_complete hr.executorType (by decide) (.some ?_)
      show ("orchestration", "RECOVERY_TERMINALIZED") ∈ recordedCodes
      decide
  | claimed hp now =>
    refine recorded_complete (x := { c.exec with dispatchRequestId := none }) hr.executorType
      (by decide) (.some ?_)
    show ("orchestration", "RECOVERY_TERMINALIZED") ∈ recordedCodes
    decide
  | _ => exact hc

theorem chronicled_recorded (hinit : ∀ w c, Init w → Holds dev w c → Recorded c) :
    Chronicled dev P Init (fun _ => True) fun _ => Recorded where
  init := hinit
  stop _ _ h := h
  call w _ _ c _ hI _ _ hc _ := hI.file c hc
  edit w c a _ _ hI _ _ hc _ he := he.recorded hc.valid.1 (hI.file c hc)
  fresh w a _ _ _ hf _ := by
    have hx := fresh_executor hf
    have hexec : a.exec = .newOrca := by
      unfold ActiveAttempt.exec
      rw [hx]
      rfl
    refine ⟨?_, ?_, fun k hk => ?_, fun hk => ?_, fun hp => ?_⟩
    · rw [hexec]
      rfl
    · rw [hexec]
      exact .none
    · rw [hexec] at hk
      cases hk
    · rw [hexec] at hk
      cases hk
    · have : a = freshIntent dev a.jobId a.workspaceId a.targetId a.attemptId a.claimToken
          a.frozenAgentId := by simpa [isFreshIntent] using hf
      rw [this] at hp
      cases hp

/-! ### the report of a pass -/

/-- The answers a call can have. -/
def Answerable (dev : Device) (e : Call) (r : Answer e) : Prop := ∃ w x, answer dev w e x = some r

/-- The verdict and the report a pass makes of a recorded outcome. -/
def buildReport (dev : Device) (active : ActiveAttempt) (exec : AttemptExecutorState) :
    Prog (Except Turn (Verdict × ExecutionReport)) := do
  match ← verdict active exec with
  | .error turn => return .error turn
  | .ok v =>
    match ← cleanup active exec v.status with
    | none => return .error (.ok true)
    | some closed =>
      let startedMs ← timeOrNow exec.dispatchStartedAtMs
      let completedMs ← timeOrNow exec.runtimeCompletedAtMs
      return .ok (v, reportOf dev active exec v closed startedMs completedMs)

/-- The pass over a recorded outcome builds its report, then saves it. -/
theorem driveOutcomeRecorded_eq (hx : c.executor = some exec) :
    driveOutcomeRecorded dev c = (do
      match ← buildReport dev c exec with
      | .error turn => return turn
      | .ok (v, report) => saveReport dev c v report) := by
  unfold driveOutcomeRecorded buildReport
  rw [hx]
  simp only [Program.bind_assoc]
  congr 1
  funext r
  cases r with
  | error turn => rfl
  | ok v =>
    simp only [Program.bind_assoc]
    congr 1
    funext r
    cases r with
    | none => rfl
    | some closed => simp only [Program.bind_assoc]; rfl

/-! ### what a pass can build -/

/-- A recorded time, or one the clock has shown. -/
def Timed (t : Option Int) (at_ : Int) : Prop := t = some at_ ∨ (t = none ∧ 0 ≤ at_)

theorem timeOrNow_yields {t : Option Int} {at_ : Int}
    (h : (timeOrNow t).Yields (Answerable dev) at_) : Timed t at_ := by
  cases t with
  | some t =>
    cases h
    exact .inl rfl
  | none =>
    cases h with
    | call he h =>
      cases h
      obtain ⟨w, x, hx⟩ := he
      cases x <;> cases hx
      exact .inr ⟨rfl, Int.natCast_nonneg _⟩

theorem captureOrFail_yields {pre : String} {v : Verdict}
    (h : (captureOrFail c pre).Yields (Answerable dev) (.ok v)) :
    ∃ captured, v = .completed (some captured) := by
  cases h with
  | @call _ _ r _ he h =>
    rcases r with (_ | text) | captured
    · cases h
    · cases h
    · cases h
      exact ⟨captured, rfl⟩

theorem completedResource_yields {v : Verdict}
    (h : (completedResource c).Yields (Answerable dev) (.ok v)) :
    ∃ captured, v = .completed (some captured) := by
  cases h with
  | @call _ _ r _ he h =>
    cases r with
    | false => exact captureOrFail_yields h
    | true =>
      cases h with
      | @call _ _ r _ he h =>
        cases r with
        | error e => exact captureOrFail_yields h
        | ok captured =>
          cases h
          exact ⟨captured, rfl⟩

theorem timedOutResource_yields {v : Verdict}
    (h : (timedOutResource c exec).Yields (Answerable dev) (.ok v)) :
    (∃ captured, v = .completed (some captured)) ∨ v = timedOutVerdict exec := by
  cases h with
  | @call _ _ r _ he h =>
    cases r <;> cases h with
    | @call _ _ r _ he h =>
      cases r with
      | error e =>
        cases h
        exact .inr rfl
      | ok captured =>
        cases h
        exact .inl ⟨captured, rfl⟩

/-- The verdicts of a pass are those of its outcome. -/
theorem verdict_yields {v : Verdict} (h : (verdict c exec).Yields (Answerable dev) (.ok v)) :
    VerdictOf c exec v := by
  unfold verdict at h
  split at h
  case h_1 hk | h_2 hk | h_3 hk =>
    split at h
    case h_1 e he =>
      cases h
      exact .failed (by simp [hk]) e he
    case h_2 he =>
      split_ifs at h with hr
      · obtain ⟨captured, rfl⟩ := completedResource_yields h
        exact .delivered (by simp [hk]) hr captured
      · cases h
        exact .completed (by simp [hk]) he (by simpa using hr)
  case h_4 hk =>
    split_ifs at h with hr
    · rcases timedOutResource_yields h with ⟨captured, rfl⟩ | rfl
      · exact .delivered (by simp [hk]) hr captured
      · exact .timedOut hk
    · cases h
      exact .timedOut hk
  case h_5 hk =>
    cases h
    exact .interrupted hk
  case h_6 hk =>
    cases h
    exact .notStarted hk
  case h_7 =>
    obtain ⟨turn, -, h⟩ := Program.yields_bind h
    cases h

/-- What a pass builds is the report of its verdict. -/
theorem buildReport_yields {v : Verdict} {report : ExecutionReport}
    (h : (buildReport dev c exec).Yields (Answerable dev) (.ok (v, report))) :
    VerdictOf c exec v ∧ ∃ closed startedMs completedMs,
      Timed exec.dispatchStartedAtMs startedMs ∧ Timed exec.runtimeCompletedAtMs completedMs ∧
      report = reportOf dev c exec v closed startedMs completedMs := by
  obtain ⟨r, hv, h⟩ := Program.yields_bind h
  cases r with
  | error turn => cases h
  | ok v' =>
    obtain ⟨r, -, h⟩ := Program.yields_bind h
    cases r with
    | none => cases h
    | some closed =>
      obtain ⟨startedMs, hs, h⟩ := Program.yields_bind h
      obtain ⟨completedMs, hc, h⟩ := Program.yields_bind h
      cases h
      exact ⟨verdict_yields hv, closed, startedMs, completedMs, timeOrNow_yields hs,
        timeOrNow_yields hc, rfl⟩

end

/-! ### the checks of a report -/

/-- A text with something in it, of at most so many bytes. -/
def isText (maxBytes : Nat) (s : String) : Bool := !(trim s).isEmpty && s.utf8ByteSize ≤ maxBytes

/-- The recorded outcome can be reported. -/
structure Deliverable (exec : AttemptExecutorState) : Prop where
  dispatched : exec.runtimeCompletionKind = some "not_started" ∨ exec.dispatchRequestId.isSome = true
  version : ∀ v, exec.orcaVersion = some v → isText maxExecutorVersionBytes v = true
  message : ∀ e, exec.runtimeError = some e → isText maxReportErrorMessageBytes e.message = true
  finished : ∀ t, exec.runtimeCompletedAtMs = some t → 0 ≤ t ∧ t ≤ maxSafeInteger
  lasted : exec.dispatchRequestId.isSome = true → ∀ t u, exec.runtimeCompletedAtMs = some t →
    exec.dispatchStartedAtMs = some u → t - u ≤ maxSafeInteger

section

variable {dev : Device} {c : ActiveAttempt} {exec : AttemptExecutorState} {v : Verdict}
  {closed : Bool × Option Int} {startedMs completedMs : Int} {e : ExecutionReportError}

/-- The stages and codes that are recorded pass their checks. -/
theorem errorGuards_coded (h : (e.stage, e.code) ∈ recordedCodes)
    (hm : isText maxReportErrorMessageBytes e.message = true) :
    Guard.All (ExecutionReport.errorGuards e) := by
  have hall : ∀ p ∈ recordedCodes, (!p.1.isEmpty && p.1.utf8ByteSize ≤ 64 &&
      p.1.toList.all fun c => isAsciiAlphanumeric c || c == '_' || c == '-') = true ∧
      (!p.2.isEmpty && p.2.utf8ByteSize ≤ 64 &&
        p.2.toList.all fun c => c.isUpper || c.isDigit || c == '_') = true := by decide +kernel
  obtain ⟨hs, hc⟩ := hall _ h
  unfold ExecutionReport.errorGuards
  simp only [Guard.all_cons, Guard.all_nil, and_true]
  exact ⟨hs, hc, hm⟩

theorem errorGuards_message (h : Guard.All (ExecutionReport.errorGuards e)) :
    isText maxReportErrorMessageBytes e.message = true := by
  unfold ExecutionReport.errorGuards at h
  simp only [Guard.all_cons] at h
  exact h.2.2.1

/-- The errors of outcomes that were recorded without one. -/
theorem errorGuards_default : ∀ e ∈ ([⟨"runtime", "EXECUTION_TIMEOUT", "Execution timed out"⟩,
    ⟨"runtime", "TERMINAL_EXITED", "Execution interrupted"⟩,
    ⟨"orchestration", "EXECUTION_NOT_STARTED", "Execution blocked before agent dispatch"⟩] :
      List ExecutionReportError), Guard.All (ExecutionReport.errorGuards e) := by
  unfold Guard.All
  decide +kernel

/-- What the verdicts of a report have in common. -/
structure Verdict.Fits (v : Verdict) (exec : AttemptExecutorState) : Prop where
  completed : v.status = .completed → v.err = none
  failed : v.status ≠ .completed → v.err.isSome = true
  started : v.outcome ≠ .notStarted → exec.runtimeCompletionKind ≠ some "not_started"

theorem VerdictOf.fits (h : VerdictOf c exec v) : v.Fits exec := by
  have hk : ∀ l : List (Option String), exec.runtimeCompletionKind ∈ l → some "not_started" ∉ l →
      exec.runtimeCompletionKind ≠ some "not_started" := fun l h hn he => hn (he ▸ h)
  cases h with
  | failed hk' e he =>
    exact ⟨fun h => (by cases h), fun _ => rfl, fun _ => hk _ hk' (by decide)⟩
  | completed hk' | delivered hk' =>
    exact ⟨fun _ => rfl, fun h => absurd rfl h, fun _ => hk _ hk' (by decide)⟩
  | timedOut hk' =>
    exact ⟨fun h => (by cases h), fun _ => rfl, fun _ => (by simp [hk'])⟩
  | interrupted hk' =>
    exact ⟨fun h => (by cases h), fun _ => rfl, fun _ => (by simp [hk'])⟩
  | notStarted hk' => exact ⟨fun h => (by cases h), fun _ => rfl, fun h => absurd rfl h⟩

/-- The error of a report is the recorded one, or the one of an outcome without. -/
theorem VerdictOf.errorGuards (h : VerdictOf c exec v) (hcoded : Coded exec.runtimeError)
    (hd : Deliverable exec) (he : v.err = some e) : Guard.All (ExecutionReport.errorGuards e) := by
  have hrec : ∀ e, exec.runtimeError = some e → Guard.All (ExecutionReport.errorGuards e) :=
    fun e h => errorGuards_coded (hcoded e h) (hd.message e h)
  have hget : ∀ d ∈ _, Guard.All (ExecutionReport.errorGuards (exec.runtimeError.getD d)) :=
    fun d hm => by
      cases hx : exec.runtimeError with
      | none => exact errorGuards_default d hm
      | some e => exact hrec e hx
  cases h with
  | failed hk e' he' =>
    cases he
    exact hrec _ he'
  | completed | delivered => cases he
  | timedOut =>
    cases he
    exact hget _ (.head _)
  | interrupted =>
    cases he
    exact hget _ (.tail _ (.head _))
  | notStarted =>
    cases he
    exact hget _ (.tail _ (.tail _ (.head _)))

/-- The report of a deliverable outcome passes its checks. -/
theorem reportOf_valid (hx : c.executor = some exec) (hr : Recorded c)
    (hp : c.phase = .outcomeRecorded) (hv : VerdictOf c exec v) (hd : Deliverable exec)
    (hs : Timed exec.dispatchStartedAtMs startedMs)
    (hc : Timed exec.runtimeCompletedAtMs completedMs) :
    (reportOf dev c exec v closed startedMs completedMs).validate = .ok () := by
  have hexec := exec_of_executor hx
  have hfit := hv.fits
  have herr := fun e => hv.errorGuards (e := e) (hexec ▸ hr.coded) hd
  have hct : exec.runtimeCompletedAtMs = some completedMs := by
    rcases hc with hc | ⟨hn, -⟩
    · exact hc
    · have := hr.timed (hr.outcome hp)
      rw [hexec, hn] at this
      cases this
  obtain ⟨hlo, hhi⟩ := hd.finished _ hct
  have hdur : exec.dispatchRequestId.isSome = true → completedMs - startedMs ≤ maxSafeInteger := by
    intro hreq
    rcases hs with hs | ⟨-, hs⟩
    · exact hd.lasted hreq _ _ hct hs
    · omega
  have hversion : isText maxExecutorVersionBytes (exec.orcaVersion.getD "unknown") = true := by
    cases hver : exec.orcaVersion with
    | none => decide +kernel
    | some version => exact hd.version _ hver
  have htype : exec.executorType = "orca" := hexec ▸ hr.executorType
  refine ExecutionReport.validate_ok_iff.2 ?_
  unfold ExecutionReport.guards reportOf
  simp only [Guard.all_append, Guard.all_cons, Guard.all_nil, and_true, Bool.and_eq_true,
    decide_eq_true_eq]
  refine ⟨⟨rfl, ⟨hlo, hhi⟩, ⟨?_, ?_⟩, ?_, ?_, ?_, ?_, ?_, ?_, ?_⟩, ?_⟩
  · split_ifs
    · exact le_max_right _ _
    · exact le_rfl
  · split_ifs with hreq
    · exact max_le (hdur hreq) (by decide)
    · decide
  · by_cases hst : v.status = .completed
    · simp [hfit.completed hst]
    · simp [hst]
  · by_cases hst : v.status = .completed
    · simp [hst]
    · have := hfit.failed hst
      cases he : v.err <;> simp_all
  · by_cases hout : v.outcome = .notStarted
    · simp [hout]
    · simp [hd.dispatched.resolve_left (hfit.started hout)]
  · by_cases hout : v.outcome = .notStarted
    · simp [hout]
    · simp [hd.dispatched.resolve_left (hfit.started hout)]
  · rw [htype]
    decide +kernel
  · simpa [isText] using hversion
  · exact dev.sha256_hex _
  · cases he : v.err with
    | none => exact Guard.all_nil
    | some e => exact herr e he

/-- What the checks say of the recorded outcome the report was made of. -/
theorem deliverable_of_valid {t : Int} (h : (reportOf dev c exec v closed startedMs t).validate = .ok ())
    (ht : exec.runtimeCompletedAtMs = some t)
    (hs : ∀ u, exec.dispatchStartedAtMs = some u → startedMs = u)
    (ho : v.outcome = .notStarted → exec.runtimeCompletionKind = some "not_started")
    (he : ∀ e, exec.runtimeError = some e → v.err = some e) : Deliverable exec := by
  have h := ExecutionReport.validate_ok_iff.1 h
  unfold ExecutionReport.guards reportOf at h
  simp only [Guard.all_append, Guard.all_cons, Guard.all_nil, and_true, Bool.and_eq_true,
    decide_eq_true_eq] at h
  obtain ⟨⟨-, ⟨hlo, hhi⟩, ⟨-, hlast⟩, -, -, hdisp, -, -, hver, -⟩, herr⟩ := h
  refine ⟨?_, fun version hversion => ?_, fun e hx => ?_, fun u hu => ?_, fun hreq u st hu hst => ?_⟩
  · by_cases hout : v.outcome = .notStarted
    · exact .inl (ho hout)
    · simp [hout] at hdisp
      exact .inr hdisp
  · rw [hversion] at hver
    simpa [isText] using hver
  · rw [he e hx] at herr
    exact errorGuards_message herr
  · rw [ht] at hu
    cases hu
    exact ⟨hlo, hhi⟩
  · rw [ht] at hu
    cases hu
    rw [if_pos hreq, hs _ hst] at hlast
    exact le_trans (le_max_left _ _) hlast

/-! ### a report of every outcome -/

theorem answerable_of {w : World} {e : Call} {r : Answer e} (x : Reply)
    (h : answer dev w e x = some r) : Answerable dev e r := ⟨w, x, h⟩

/-- Some pass makes a verdict with the recorded error. -/
theorem exists_verdict (hk : ∃ k ∈ knownKinds, exec.runtimeCompletionKind = some k) :
    ∃ v, (verdict c exec).Yields (Answerable dev) (.ok v) ∧
      (v.outcome = .notStarted → exec.runtimeCompletionKind = some "not_started") ∧
      ∀ e, exec.runtimeError = some e → v.err = some e := by
  obtain ⟨k, hm, hk⟩ := hk
  have hfail : Answerable dev (.preservedExists c.jobId c.attemptId) false :=
    answerable_of (w := World.empty) (.fail false) rfl
  have hnone : Answerable dev (.captureManagedResult c) (.error .notFound) :=
    answerable_of (w := World.empty) (.captured (.error .notFound)) rfl
  have hsome : Answerable dev (.captureManagedResult c) (.ok ⟨"", ""⟩) :=
    answerable_of (w := World.empty) (.captured (.ok ⟨"", ""⟩)) rfl
  have hthree : exec.runtimeCompletionKind ∈ completedKinds →
      ∃ v, (verdict c exec).Yields (Answerable dev) (.ok v) ∧
        (v.outcome = .notStarted → exec.runtimeCompletionKind = some "not_started") ∧
        ∀ e, exec.runtimeError = some e → v.err = some e := by
    intro hk
    cases hx : exec.runtimeError with
    | some e =>
      rw [verdict_of_error hk hx]
      exact ⟨_, .done _, fun h => (by cases h), fun e' he => by cases he; rfl⟩
    | none =>
      rw [verdict_of_completed hk hx]
      cases hr : isResource c with
      | false => exact ⟨_, .done _, fun h => (by cases h), fun e' he => by cases he⟩
      | true =>
        exact ⟨_, .call hfail (.call hsome (.done _)), fun h => (by cases h), fun e' he => by cases he⟩
  simp only [knownKinds, List.mem_cons, List.not_mem_nil, or_false] at hm
  rcases hm with rfl | rfl | rfl | rfl | rfl | rfl
  · exact hthree (by simp [completedKinds, hk])
  · exact hthree (by simp [completedKinds, hk])
  · exact hthree (by simp [completedKinds, hk])
  · refine ⟨timedOutVerdict exec, ?_, fun h => (by cases h), fun e he => ?_⟩
    · unfold verdict
      rw [hk]
      simp only
      split_ifs
      · exact .call hfail (.call hnone (.done _))
      · exact .done _
    · simp [timedOutVerdict, he]
  · have heq : verdict c exec = .done (.ok ⟨.failed, .failed, some (exec.runtimeError.getD
        ⟨"runtime", "TERMINAL_EXITED", "Execution interrupted"⟩), none⟩) := by
      unfold verdict
      rw [hk]
      rfl
    rw [heq]
    exact ⟨_, .done _, fun h => (by cases h), fun e he => by simp [he]⟩
  · have heq : verdict c exec = .done (.ok ⟨.blocked, .notStarted, some (exec.runtimeError.getD
        ⟨"orchestration", "EXECUTION_NOT_STARTED",
          "Execution blocked before agent dispatch"⟩), none⟩) := by
      unfold verdict
      rw [hk]
      rfl
    rw [heq]
    exact ⟨_, .done _, fun _ => hk, fun e he => by simp [he]⟩

theorem exists_cleanup (status : ExecutionStatus) :
    ∃ closed, (cleanup c exec status).Yields (Answerable dev) (some closed) := by
  have hclose : ∀ tid, Answerable dev (.close tid) (.verifiedClosed 0) := fun tid =>
    answerable_of (w := World.empty) (.close (.verifiedClosed 0)) rfl
  have hint : ∀ tid, Answerable dev (.interrupt c tid) () := fun tid =>
    answerable_of (w := World.empty) .ok rfl
  unfold cleanup
  cases status with
  | completed =>
    cases exec.terminalId with
    | none => exact ⟨_, .done _⟩
    | some tid => exact ⟨_, .call (hclose tid) (.done _)⟩
  | timedOut =>
    cases exec.terminalId with
    | none => exact ⟨_, .done _⟩
    | some tid => exact ⟨_, .call (hint tid) (.done _)⟩
  | _ => exact ⟨_, .done _⟩

theorem exists_time (t : Option Int) :
    ∃ at_, (timeOrNow t).Yields (Answerable dev) at_ ∧ ∀ u, t = some u → at_ = u := by
  cases t with
  | some t => exact ⟨t, .done t, fun u hu => by cases hu; rfl⟩
  | none =>
    exact ⟨_, .call (answerable_of (w := World.empty) (.time 0) rfl) (.done _), fun u hu => by cases hu⟩

/-- Some pass builds a report that has the recorded error and the recorded times. -/
theorem exists_report (hk : ∃ k ∈ knownKinds, exec.runtimeCompletionKind = some k) :
    ∃ v closed startedMs completedMs,
      (buildReport dev c exec).Yields (Answerable dev)
        (.ok (v, reportOf dev c exec v closed startedMs completedMs)) ∧
      (∀ u, exec.dispatchStartedAtMs = some u → startedMs = u) ∧
      (∀ u, exec.runtimeCompletedAtMs = some u → completedMs = u) ∧
      (v.outcome = .notStarted → exec.runtimeCompletionKind = some "not_started") ∧
      ∀ e, exec.runtimeError = some e → v.err = some e := by
  obtain ⟨v, hv, ho, he⟩ := @exists_verdict dev c exec hk
  obtain ⟨closed, hc⟩ := @exists_cleanup dev c exec v.status
  obtain ⟨startedMs, hs, hs'⟩ := @exists_time dev exec.dispatchStartedAtMs
  obtain ⟨completedMs, ht, ht'⟩ := @exists_time dev exec.runtimeCompletedAtMs
  exact ⟨v, closed, startedMs, completedMs,
    hv.bind (hc.bind (hs.bind (ht.bind (.done _)))), hs', ht', ho, he⟩

/-! ### whole runs -/

/-- **The reports of a recorded outcome pass their checks exactly if the outcome is deliverable**, in
every run. -/
theorem report_valid_iff {Init : World → Prop} (hstart : Starts Init)
    (hinit : ∀ w c, Init w → Holds dev w c → Recorded c)
    {s : Machine.State World Call Answer Out} (hs : (daemon dev Init).system.Reachable s)
    (hc : Holds dev s.store c) (hp : c.phase = .outcomeRecorded) (hx : c.executor = some exec) :
    (∀ v report, (buildReport dev c exec).Yields (Answerable dev) (.ok (v, report)) →
      report.validate = .ok ()) ↔ Deliverable exec := by
  have hr : Recorded c :=
    (chronicle hstart (chronicled_recorded hinit) (Machine.reachable_any hs)).1.file c hc
  have hexec := exec_of_executor hx
  constructor
  · intro h
    obtain ⟨k, hk⟩ := Option.isSome_iff_exists.1 (hr.outcome hp)
    obtain ⟨t, ht⟩ := Option.isSome_iff_exists.1 (hr.timed (hr.outcome hp))
    rw [hexec] at hk ht
    obtain ⟨v, closed, startedMs, completedMs, hy, hs, hcomp, ho, he⟩ :=
      @exists_report dev c exec ⟨k, hr.known k (hexec ▸ hk), hk⟩
    obtain rfl := hcomp t ht
    exact deliverable_of_valid (h _ _ hy) ht hs ho he
  · intro hd v report h
    obtain ⟨hv, closed, startedMs, completedMs, hs, hc, rfl⟩ := buildReport_yields h
    exact reportOf_valid hx hr hp hv hd hs hc

end

/-! ### a terminal that exits -/

namespace Sample

/-- The attempt after its terminal has exited. -/
def interrupted (reason : String) : ActiveAttempt :=
  ((waiting "result").mapExecutor (·.complete "interrupted" 5000
    (some ⟨"runtime", "TERMINAL_EXITED", reason⟩))).inPhase .outcomeRecorded

/-- The adapter says that the terminal has exited. -/
def exits (reason : String) : List Step :=
  start ++ wait (.interrupted reason) ++ .reply (.time 5000) :: oks 2

/-- The error output of a terminal command, as the adapter passes it on. -/
def longReason : String :=
  "terminal exited/not found (exit Some(1)): " ++ String.ofList (List.replicate 2048 'x')

theorem waiting_recorded (w : World) (c : ActiveAttempt) (hw : w = directory (waiting "result"))
    (hc : Holds .sample w c) : Recorded c := by
  subst hw
  obtain ⟨a, ha, hl⟩ := hc.loaded
  cases ha
  cases (ActiveAttempt.load_ok_iff.1 hl).1
  exact ⟨rfl, fun e he => (by cases he), fun k hk => (by cases hk), fun hk => (by cases hk),
    fun hp => by cases hp⟩

end Sample

set_option maxRecDepth 10000 in
/-- The report of an outcome with a text in it passes its checks. -/
theorem report_valid_sample : ∃ s,
    (daemon .sample (· = Sample.directory (Sample.waiting "result"))).system.Reachable s ∧
      s.store.active = some (Sample.interrupted "the terminal has exited") ∧
      ∀ exec, (Sample.interrupted "the terminal has exited").executor = some exec →
        ∀ v report, (buildReport .sample (Sample.interrupted "the terminal has exited") exec).Yields
          (Answerable .sample) (.ok (v, report)) → report.validate = .ok () := by
  obtain ⟨s, hs, hc⟩ := Sample.reachable (Sample.directory (Sample.waiting "result"))
    (Sample.exits "the terminal has exited")
    (fun w => decide (w.active = some (Sample.interrupted "the terminal has exited")))
    (by decide +kernel)
  have ha := of_decide_eq_true hc
  refine ⟨s, hs, ha, fun exec hx => ?_⟩
  have hh : Holds .sample s.store (Sample.interrupted "the terminal has exited") :=
    holds_of_saved ha (valid_of_isOk (by decide +kernel)) (by decide)
  refine (report_valid_iff (Sample.starts_directory _) Sample.waiting_recorded hs hh rfl hx).2 ?_
  cases hx
  refine ⟨.inr rfl, fun v hv => ?_, fun e he => ?_, fun t ht => ?_, fun _ t u ht hu => ?_⟩
  · cases hv
    decide +kernel
  · cases he
    decide +kernel
  · cases ht
    decide
  · cases ht
    cases hu
    decide

/-- The outcome on disk has an error whose text is too long for a message. -/
def isOverlong (w : World) : Bool :=
  w.active.any fun c => c.phase == .outcomeRecorded && (c.validate (Device.sample).toHost).isOk &&
    c.exec.runtimeCompletionKind == some "interrupted" && c.executor.isSome &&
      c.exec.runtimeError.any fun e => maxReportErrorMessageBytes < e.message.utf8ByteSize

set_option maxRecDepth 10000 in
/-- The adapter's reason for the exit of the terminal is longer than a message may be: the report is
refused by its own checks. -/
theorem report_refused :
    ¬ ∀ s, (daemon .sample (· = Sample.directory (Sample.waiting "result"))).system.Reachable s →
      ∀ c exec, Holds .sample s.store c → c.phase = .outcomeRecorded → c.executor = some exec →
        ∀ v report, (buildReport .sample c exec).Yields (Answerable .sample) (.ok (v, report)) →
          report.validate = .ok () := by
  intro h
  obtain ⟨s, hs, hc⟩ := Sample.reachable (Sample.directory (Sample.waiting "result"))
    (Sample.exits Sample.longReason) isOverlong (by decide +kernel)
  unfold isOverlong at hc
  cases ha : s.store.active with
  | none => simp [ha] at hc
  | some c =>
    simp only [ha, Option.any_some, Bool.and_eq_true, beq_iff_eq, Option.any_eq_true] at hc
    obtain ⟨⟨⟨⟨hp, hv⟩, hk⟩, hx⟩, e, he, hlong⟩ := hc
    obtain ⟨exec, hx⟩ := Option.isSome_iff_exists.1 hx
    have hexec := exec_of_executor hx
    have hh : Holds .sample s.store c := holds_of_saved ha (valid_of_isOk hv) (by simp [hp])
    obtain ⟨v, closed, startedMs, completedMs, hy, -, -, -, hverr⟩ :=
      @exists_report .sample c exec ⟨_, by decide, hexec ▸ hk⟩
    have hvalid := ExecutionReport.validate_ok_iff.1 (h s hs c exec hh hp hx _ _ hy)
    unfold ExecutionReport.guards reportOf at hvalid
    simp only [Guard.all_append, hverr e (hexec ▸ he)] at hvalid
    have hm := errorGuards_message hvalid.2
    simp only [isText, Bool.and_eq_true, decide_eq_true_eq] at hm hlong
    omega

end Ceo.Attempt
