import Ceo.Attempt.Machine

/-!
# What a pass can do

Every save of a pass is one of the edits listed in `Edit`, made to the record
that is in the file at that moment; `Needs` says the same for the other calls
that matter. `daemon_needs` is the one walk through the program: it holds
whatever was answered, wherever the daemon had stopped before, and whatever a
project command did between two calls. What is proved of whole runs later is
proved from these lists.
-/

namespace Ceo.Attempt

open Ceo.Lib Ceo.Jobs
open Ceo.Connector (Phase)

/-! ### calls over the state directory -/

section

variable {dev : Device} {w t : World}

/-- The calls that leave the state directory as it is. -/
def Call.isQuiet : Call → Bool
  | .lock | .unlock | .saveActive _ | .removeActive | .saveOutbox _ | .removeOutbox _ _
  | .saveHistory _ => false
  | _ => true

theorem serve_inv {e : Call} {x : Reply} {r : Answer e} (h : serve dev w e x = some (r, t)) :
    answer dev w e x = some r ∧ t = (effect dev w e x).record e r := by
  unfold serve at h
  obtain ⟨r', hr, heq⟩ := Option.map_eq_some_iff.1 h
  cases heq
  exact ⟨hr, rfl⟩

theorem effect_quiet {e : Call} (he : e.isQuiet = true) (x : Reply) : effect dev w e x = w := by
  cases e <;> first | rfl | cases he

/-- The record the daemon finds in the file. -/
def Holds (dev : Device) (w : World) (c : ActiveAttempt) : Prop := loadFile dev w = .ok (some c)

/-- If there is an attempt in the file, it is `c`. -/
def Sound (dev : Device) (c : ActiveAttempt) (w : World) : Prop := w.active = none ∨ Holds dev w c

theorem holds_of_active {w' : World} {c : ActiveAttempt} (h : w'.active = w.active) :
    Holds dev w' c ↔ Holds dev w c := by
  unfold Holds loadFile
  rw [h]

theorem Holds.active {c : ActiveAttempt} (h : Holds dev w c) : w.active ≠ none := by
  intro hn
  simp [Holds, loadFile, hn] at h

theorem Holds.unique {c c' : ActiveAttempt} (h : Holds dev w c) (h' : Holds dev w c') : c' = c := by
  unfold Holds at h h'
  rw [h] at h'
  cases h'
  rfl

theorem Sound.of_holds {c c' : ActiveAttempt} (h : Sound dev c w) (h' : Holds dev w c') :
    c' = c := by
  rcases h with hn | hc
  · exact absurd hn h'.active
  · exact hc.unique h'

/-- A record that was loaded is of the present version, valid and not a legacy one. -/
theorem Holds.loaded {c : ActiveAttempt} (h : Holds dev w c) :
    ∃ a, w.active = some a ∧ a.load dev.toHost = .ok c := by
  unfold Holds loadFile at h
  cases ha : w.active with
  | none => simp [ha] at h
  | some a =>
    refine ⟨a, rfl, ?_⟩
    rw [ha] at h
    cases hl : a.load dev.toHost with
    | error e => simp [hl] at h
    | ok b =>
      simp only [hl, Except.ok.injEq, Option.some.injEq] at h
      rw [h]

theorem Holds.valid {c : ActiveAttempt} (h : Holds dev w c) :
    c.Valid dev.toHost ∧ c.phase ≠ .legacyRunning := by
  obtain ⟨a, -, hl⟩ := h.loaded
  obtain ⟨hp, hv⟩ := ActiveAttempt.load_ok_iff.1 hl
  exact ⟨hv, ActiveAttempt.promote_phase hp⟩

theorem holds_of_saved {c : ActiveAttempt} (ha : w.active = some c) (hv : c.Valid dev.toHost)
    (hp : c.phase ≠ .legacyRunning) : Holds dev w c := by
  simp [Holds, loadFile, ha, ActiveAttempt.load_self hv hp]

/-- A record that was loaded is the one in the outbox under its own name. -/
theorem outboxFile_loaded {j a : String} {x : Reply} {o : OutboxRecord}
    (h : answer dev w (.loadOutbox j a) x = some (.ok o)) :
    w.outboxFile o.jobId o.attemptId = some o := by
  cases x <;> simp only [answer] at h
  case ok =>
    cases ho : w.outboxFile j a with
    | none =>
      rw [ho] at h
      cases h
    | some o' =>
      rw [ho] at h
      cases hv : o'.report.validate with
      | error e =>
        simp only [hv, Except.map] at h
        cases h
      | ok =>
        simp only [hv, Except.map] at h
        cases h
        have hk : World.key j a o = true := List.find?_some (by unfold World.outboxFile at ho; exact ho)
        simp only [World.key, Bool.and_eq_true, beq_iff_eq] at hk
        rw [hk.1, hk.2]
        exact ho
  all_goals cases h

/-! ### the project command -/

theorem project_frame {x : Project} (h : project dev w x = some t) :
    w.locked = false ∧ t.locked = false ∧ t.outbox = w.outbox ∧ t.used = w.used ∧ t.log = w.log ∧
      (t.active = w.active ∨ t.active = none) := by
  cases x with
  | writeHistory nowMs =>
    simp only [project] at h
    split at h
    · cases h
      exact ⟨‹_›, ‹_›, rfl, rfl, rfl, .inl rfl⟩
    · cases h
  | removeActive =>
    simp only [project] at h
    split at h
    · split_ifs at h
      cases h
      exact ⟨‹_›, ‹_›, rfl, rfl, rfl, .inr rfl⟩
    · cases h

end

/-! ### what is saved -/

/-- The calls around a save that say nothing about the execution. -/
def Call.isHousekeeping : Call → Bool
  | .lock | .unlock | .loadActive | .ensureRuntimeDir _ | .nowUtcMs | .captureManagedResult _ => true
  | _ => false

/-- A save that failed says nothing either. -/
def Entry.isHousekeeping : Entry → Bool
  | .call (.saveActive _) (some (.ok _)) => false
  | .call (.saveActive _) _ => true
  | .call e _ => e.isHousekeeping
  | .stopped => false

/-- The last call that is not housekeeping. -/
def latest (log : List Entry) : Option Entry := log.find? fun x => !x.isHousekeeping

/-- The calls a block makes beside what it is about. -/
def Call.isAside : Call → Bool
  | .lock | .loadActive | .nowUtcMs | .preservedExists _ _ | .captureManagedResult _ => true
  | _ => false

def Entry.isAside : Entry → Bool
  | .call e _ => e.isAside
  | .stopped => false

/-- The last call that a block was entered with. -/
def lastAsked (log : List Entry) : Option Entry := log.find? fun x => !x.isAside

/-- The last call was a wait, and answered `o`. -/
def Waited (log : List Entry) (o : WaitOutcome) : Prop :=
  ∃ a tid, latest log = some (.call (.wait a tid) (some (.ok o)))

/-- The outcomes that come from the agent itself. -/
def WaitOutcome.isStructured : WaitOutcome → Bool
  | .workingObserved | .agentSeen | .agentDone => true
  | _ => false

/-- The last call saw the agent. -/
def Seen (log : List Entry) : Prop := ∃ o, WaitOutcome.isStructured o = true ∧ Waited log o

def ActiveAttempt.isStructured (c : ActiveAttempt) : Bool :=
  (c.executor.map (·.structuredLifecycleObserved)).getD false

/-- That the agent was seen is on record, or does not matter any more. -/
def Passed (c : ActiveAttempt) : Prop :=
  c.isStructured = true ∨ c.phase ∈ [.outcomeRecorded, .finalizedLocal, .recoveryRequired]

inductive Advances (c : ActiveAttempt) : Phase → Prop where
  | prepare (hp : c.phase = .claimed) : Advances c .prepareIntent
  | sent (hp : c.phase = .dispatched) : Advances c .startIntent
  | started (hp : c.phase = .startIntent) : Advances c .started
  | wait (hp : c.phase = .started) : Advances c .waiting
  /-- A logical agent's attempt that was dispatched by its worker. -/
  | dispatchedBefore (hp : c.phase = .prepared ∨ c.phase = .dispatchIntent)
      (hd : c.hasPositiveDispatch = true) : Advances c .startIntent

def knownKinds : List String :=
  ["managed_result", "agent_done", "tui_idle", "timed_out", "interrupted", "not_started"]

/-- The phases an attempt is put into recovery from. -/
def mayRecover : Phase → Bool
  | .claimIntent | .startIntent | .prepareIntent | .prepared | .dispatchIntent | .waiting
  | .outcomeRecorded | .legacyRunning => true
  | _ => false

structure Recoverable (c : ActiveAttempt) : Prop where
  phase : mayRecover c.phase = true
  /-- A recorded outcome is put into recovery when nobody knows its kind. -/
  unknown : c.phase = .outcomeRecorded → ∀ exec, c.executor = some exec →
    ∀ k ∈ knownKinds, exec.runtimeCompletionKind ≠ some k

/-- The stages and codes of the errors that are recorded with an outcome. -/
def recordedCodes : List (String × String) :=
  [("prepare", "AGENT_NOT_READY"), ("dispatch", "DISPATCH_REJECTED"), ("result", "RESULT_MISSING"),
   ("result", "RESULT_INVALID"), ("runtime", "TERMINAL_EXITED"), ("runtime", "EXECUTION_TIMEOUT"),
   ("runtime", "RECOVERY_TERMINALIZED"), ("orchestration", "RECOVERY_TERMINALIZED")]

def Coded (err : Option ExecutionReportError) : Prop :=
  ∀ e, err = some e → (e.stage, e.code) ∈ recordedCodes

/-- How the waiting loop completes an attempt. -/
inductive Completes (log : List Entry) (c : ActiveAttempt) :
    String → Option ExecutionReportError → Prop where
  | managed : Completes log c "managed_result" none
  | timedOut {err} (h : Coded err) : Completes log c "timed_out" err
  | done {err} (h : Coded err) (hw : Waited log .agentDone)
      (ht : ∀ exec, c.executor = some exec → exec.turnStartedObserved = true) :
      Completes log c "agent_done" err
  | idle {err} (h : Coded err) (hw : Waited log .tuiIdle)
      (hs : ∀ exec, c.executor = some exec → exec.structuredLifecycleObserved = false) :
      Completes log c "tui_idle" err
  | interrupted (reason : String) (hw : Waited log (.interrupted reason)) :
      Completes log c "interrupted" (some ⟨"runtime", "TERMINAL_EXITED", reason⟩)

/-- What may be saved in the place of the record `c`. -/
inductive Edit (dev : Device) (w : World) (c : ActiveAttempt) : ActiveAttempt → Prop where
  | claim (hp : c.phase = .claimIntent) (job : ClaimedJobWire) (claimedAtMs : Int)
      (hj : job.jobId = c.jobId ∧ job.workspaceId = c.workspaceId ∧ job.targetId = c.targetId) :
      Edit dev w c ((c.claimed dev job claimedAtMs).inPhase .claimed)
  | advance {ph : Phase} (h : Advances c ph) : Edit dev w c (c.inPhase ph)
  | recover (h : Recoverable c) : Edit dev w c (c.inPhase .recoveryRequired)
  | clock (hp : c.phase = .prepareIntent) (now : Int) (timeoutSeconds : Option Nat) :
      Edit dev w c (c.insertExecutor (·.startClock now timeoutSeconds))
  | late (hp : c.phase = .prepareIntent) (now : Int) (timeoutSeconds : Option Nat) :
      Edit dev w c ((c.insertExecutor (·.startClock now timeoutSeconds)).inPhase .recoveryRequired)
  | identify (hp : c.phase = .prepareIntent) (i : PreparedExecutionIdentity) :
      Edit dev w c (c.identify (some i))
  | unprepared (hp : c.phase = .prepareIntent) (i : Option PreparedExecutionIdentity) :
      Edit dev w c ((c.identify i).inPhase .recoveryRequired)
  | ready (hp : c.phase = .prepareIntent) (prep : PreparedExecution) (a : ActiveAttempt)
      (target : LocalTarget)
      (hl : latest w.log = some (.call (.prepare a target) (some (.ok (.ready prep)))))
      (ha : a.attemptId = c.attemptId) : Edit dev w c (c.ready prep)
  | notReady (hp : c.phase = .prepareIntent) (i : PreparedExecutionIdentity) (reason : String)
      (now : Int) (a : ActiveAttempt) (target : LocalTarget)
      (hl : latest w.log = some (.call (.prepare a target) (some (.ok (.notReady i reason)))))
      (ha : a.attemptId = c.attemptId) :
      Edit dev w c ((c.insertExecutor fun exec => (exec.identify i).complete "not_started" now
        (some ⟨"prepare", "AGENT_NOT_READY", reason⟩)).inPhase .outcomeRecorded)
  | intend (hp : c.phase = .prepared) (now : Int) (timeoutSeconds : Option Nat) :
      Edit dev w c ((c.mapExecutor (·.startClock now timeoutSeconds)).inPhase .dispatchIntent)
  | count (hp : c.phase = .dispatchIntent) (tid : String) (baseline : Except String (Option Int))
      (ho : c.executor.bind (·.lastDispatchOutcome) ≠ some "ambiguous")
      (hn : (c.executor.map (·.dispatchSendCount)).getD 0 < 2)
      (hl : latest w.log = some (.call (.agentStatusBaseline tid) (some baseline))) :
      Edit dev w c (c.mapExecutor (·.countSend (baseline.toOption.getD none)))
  | accept (hp : c.phase = .dispatchIntent) (a : ActiveAttempt) (tid requestId : String)
      (acceptedAtMs : Int) (turnStarted : Bool)
      (ho : c.executor.bind (·.lastDispatchOutcome) ≠ some "ambiguous")
      (hl : latest w.log = some (.call (.dispatch a tid)
        (some (.ok (.accepted requestId acceptedAtMs turnStarted))))) :
      Edit dev w c
        ((c.mapExecutor (·.accept requestId acceptedAtMs turnStarted)).inPhase .dispatched)
  | reject (hp : c.phase = .dispatchIntent) (a : ActiveAttempt) (tid reason : String)
      (ho : c.executor.bind (·.lastDispatchOutcome) ≠ some "ambiguous")
      (hl : latest w.log = some (.call (.dispatch a tid)
        (some (.ok (.knownRejectedBeforeAcceptance reason))))) :
      Edit dev w c (c.mapExecutor (·.lastOutcome "known_rejected"))
  | doubt (hp : c.phase = .dispatchIntent) (a : ActiveAttempt) (tid error : String)
      (ho : c.executor.bind (·.lastDispatchOutcome) ≠ some "ambiguous")
      (hl : latest w.log = some (.call (.dispatch a tid)
        (some (.ok (.ambiguousTransportFailure error))))) :
      Edit dev w c (c.mapExecutor (·.lastOutcome "ambiguous"))
  | reconcile (hp : c.phase = .dispatchIntent) (requestId : String) (now : Int) (tid : String)
      (hl : latest w.log = some (.call (.reconcileDispatch c tid)
        (some (.ok (.accepted requestId))))) :
      Edit dev w c ((c.mapExecutor (·.reconcile requestId now)).inPhase .dispatched)
  | exhaust (hp : c.phase = .dispatchIntent) (now : Int)
      (ho : c.executor.bind (·.lastDispatchOutcome) ≠ some "ambiguous")
      (hn : 2 ≤ (c.executor.map (·.dispatchSendCount)).getD 0)
      (tid : String) (hl : latest w.log = some (.call (.reconcileDispatch c tid)
        (some (.ok .definitelyNotDispatched)))) :
      Edit dev w c
        ((c.mapExecutor (·.complete "not_started" now (some budgetExhausted))).inPhase
          .outcomeRecorded)
  | working (hp : c.phase = .waiting) (hw : Waited w.log .workingObserved) :
      Edit dev w c (c.mapExecutor (·.observeWorking))
  | seen (hp : c.phase = .waiting)
      (hw : Waited w.log .agentSeen ∨ Waited w.log .agentDone) :
      Edit dev w c (c.mapExecutor (·.observeAgent))
  | complete (hp : c.phase = .waiting) (kind : String) (now : Int)
      (err : Option ExecutionReportError) (hc : Completes w.log c kind err) :
      Edit dev w c ((c.mapExecutor (·.complete kind now err)).inPhase .outcomeRecorded)
  | finalize (hp : c.phase = .outcomeRecorded) (o : OutboxRecord)
      (ho : w.outboxFile c.jobId c.attemptId = some o) :
      Edit dev w c (c.finalized (dev.computeReportSha256 o.report))
  | terminalize (hp : c.phase = .recoveryRequired) (detail : JobDetail) (captured : Bool)
      (now : Int) (hcap : captured = true → isResource c = true)
      (hl : lastAsked w.log = some (.call (.getJob c.jobId) (some (.ok detail))))
      (hd : detail.state ≠ "terminal" ∧
        detail.execution.map (·.attemptId) = some c.attemptId) :
      Edit dev w c ((c.insertExecutor fun exec =>
        if serverRunning detail then recoverRunning exec captured now
        else recoverClaimed exec now).inPhase .outcomeRecorded)

/-! ### the executor state of an edited attempt -/

/-- The executor state, as `get_or_insert_with` sees it. -/
def ActiveAttempt.exec (a : ActiveAttempt) : AttemptExecutorState := a.executor.getD .newOrca

theorem exec_of_executor {a : ActiveAttempt} {exec : AttemptExecutorState}
    (hx : a.executor = some exec) : a.exec = exec := by
  unfold ActiveAttempt.exec
  rw [hx]
  rfl

section

variable (a : ActiveAttempt)

@[simp] theorem exec_inPhase (ph : Phase) : (a.inPhase ph).exec = a.exec := rfl

@[simp] theorem exec_insertExecutor (f : AttemptExecutorState → AttemptExecutorState) :
    (a.insertExecutor f).exec = f a.exec := rfl

@[simp] theorem exec_claimed (dev : Device) (job : ClaimedJobWire) (claimedAtMs : Int) :
    (a.claimed dev job claimedAtMs).exec = a.exec := rfl

@[simp] theorem exec_finalized (digest : String) : (a.finalized digest).exec = a.exec := rfl

theorem exec_mapExecutor (f : AttemptExecutorState → AttemptExecutorState) :
    (a.mapExecutor f).exec = f a.exec ∨
      a.executor = none ∧ (a.mapExecutor f).exec = a.exec := by
  unfold ActiveAttempt.exec ActiveAttempt.mapExecutor
  cases a.executor with
  | none => exact .inr ⟨rfl, rfl⟩
  | some exec => exact .inl rfl

end

/-- What an edit makes of the executor state, and the phase it leaves the attempt in. -/
inductive ExecEdit (w : World) (c : ActiveAttempt) : AttemptExecutorState → Phase → Prop where
  | same {ph : Phase} : ExecEdit w c c.exec ph
  | clock {ph : Phase} (now : Int) (timeoutSeconds : Option Nat) :
      ExecEdit w c (c.exec.startClock now timeoutSeconds) ph
  | identify {ph : Phase} (hp : c.phase = .prepareIntent) (i : PreparedExecutionIdentity) :
      ExecEdit w c (c.exec.identify i) ph
  | ready (hp : c.phase = .prepareIntent) (i : PreparedExecutionIdentity)
      (agentReadyAtMs : Option Int) :
      ExecEdit w c ((c.exec.identify i).readyAt agentReadyAtMs) .prepared
  | worker (hp : c.phase = .prepareIntent) (i : PreparedExecutionIdentity)
      (agentReadyAtMs : Option Int) (evidence : PreparedDispatchEvidence) :
      ExecEdit w c (((c.exec.identify i).readyAt agentReadyAtMs).workerStarted evidence) .startIntent
  | notReady (hp : c.phase = .prepareIntent) (i : PreparedExecutionIdentity) (now : Int)
      (reason : String) :
      ExecEdit w c ((c.exec.identify i).complete "not_started" now
        (some ⟨"prepare", "AGENT_NOT_READY", reason⟩)) .outcomeRecorded
  | count (hp : c.phase = .dispatchIntent) (baseline : Option Int)
      (hn : c.exec.dispatchSendCount < 2) : ExecEdit w c (c.exec.countSend baseline) .dispatchIntent
  | accept (hp : c.phase = .dispatchIntent) (requestId : String) (acceptedAtMs : Int)
      (turnStarted : Bool) :
      ExecEdit w c (c.exec.accept requestId acceptedAtMs turnStarted) .dispatched
  | outcome (hp : c.phase = .dispatchIntent) (outcome : String)
      (ho : c.exec.lastDispatchOutcome ≠ some "ambiguous") :
      ExecEdit w c (c.exec.lastOutcome outcome) .dispatchIntent
  | reconcile (hp : c.phase = .dispatchIntent) (requestId : String) (now : Int) :
      ExecEdit w c (c.exec.reconcile requestId now) .dispatched
  | exhaust (hp : c.phase = .dispatchIntent) (now : Int) :
      ExecEdit w c (c.exec.complete "not_started" now (some budgetExhausted)) .outcomeRecorded
  | working (hp : c.phase = .waiting) : ExecEdit w c c.exec.observeWorking .waiting
  | seen (hp : c.phase = .waiting) : ExecEdit w c c.exec.observeAgent .waiting
  | complete (hp : c.phase = .waiting) (kind : String) (now : Int)
      (err : Option ExecutionReportError) (hc : Completes w.log c kind err) :
      ExecEdit w c (c.exec.complete kind now err) .outcomeRecorded
  | running (hp : c.phase = .recoveryRequired) (captured : Bool) (now : Int) :
      ExecEdit w c (recoverRunning c.exec captured now) .outcomeRecorded
  | claimed (hp : c.phase = .recoveryRequired) (now : Int) :
      ExecEdit w c (recoverClaimed c.exec now) .outcomeRecorded

theorem sendCount_exec (c : ActiveAttempt) :
    (c.executor.map (·.dispatchSendCount)).getD 0 = c.exec.dispatchSendCount := by
  unfold ActiveAttempt.exec
  cases c.executor <;> rfl

theorem lastOutcome_exec (c : ActiveAttempt) :
    c.executor.bind (·.lastDispatchOutcome) = c.exec.lastDispatchOutcome := by
  unfold ActiveAttempt.exec
  cases c.executor <;> rfl

theorem Edit.exec {dev : Device} {w : World} {c a : ActiveAttempt} (h : Edit dev w c a) :
    ExecEdit w c a.exec a.phase := by
  have hmap : ∀ f ph, ExecEdit w c (f c.exec) ph → ExecEdit w c (c.mapExecutor f).exec ph := by
    intro f ph hf
    rcases exec_mapExecutor c f with h | ⟨-, h⟩
    · rw [h]
      exact hf
    · rw [h]
      exact .same
  cases h with
  | claim | advance | recover | finalize => exact .same
  | clock hp now t | late hp now t => exact .clock now t
  | identify hp i => exact .identify hp i
  | unprepared hp i =>
    cases i with
    | none => exact .same
    | some i => exact .identify hp i
  | ready hp prep b target hl ha =>
    unfold ActiveAttempt.ready
    cases prep.dispatch with
    | none => exact .ready hp _ _
    | some evidence => exact .worker hp _ _ evidence
  | notReady hp i reason now b target hl ha => exact .notReady hp i now reason
  | intend hp now t => exact hmap _ _ (.clock now t)
  | count hp tid baseline ho hn hl =>
    refine hmap _ _ ?_
    show ExecEdit w c _ c.phase
    rw [hp]
    exact .count hp _ (sendCount_exec c ▸ hn)
  | accept hp b tid requestId at_ turnStarted ho hl => exact hmap _ _ (.accept hp _ _ _)
  | reject hp b tid reason ho hl | doubt hp b tid reason ho hl =>
    refine hmap _ _ ?_
    show ExecEdit w c _ c.phase
    rw [hp]
    exact .outcome hp _ (lastOutcome_exec c ▸ ho)
  | reconcile hp requestId now tid hl => exact hmap _ _ (.reconcile hp _ _)
  | exhaust hp now ho hn tid hl => exact hmap _ _ (.exhaust hp now)
  | working hp hw =>
    refine hmap _ _ ?_
    show ExecEdit w c _ c.phase
    rw [hp]
    exact .working hp
  | seen hp hw =>
    refine hmap _ _ ?_
    show ExecEdit w c _ c.phase
    rw [hp]
    exact .seen hp
  | complete hp kind now err hc => exact hmap _ _ (.complete hp kind now err hc)
  | terminalize hp detail captured now hcap hl hd =>
    show ExecEdit w c (if serverRunning detail then _ else _) .outcomeRecorded
    split_ifs
    · exact .running hp captured now
    · exact .claimed hp now

/-- A fact about the edited executor state is proved for each kind of edit. -/
theorem Edit.elim {dev : Device} {w : World} {c a : ActiveAttempt}
    {p : AttemptExecutorState → Phase → Prop} (h : Edit dev w c a)
    (hp : ∀ x ph, ExecEdit w c x ph → p x ph) : p a.exec a.phase := hp _ _ h.exec

/-! ### what the calls need -/

/-- The verdicts a recorded outcome can have. -/
inductive VerdictOf (c : ActiveAttempt) (exec : AttemptExecutorState) : Verdict → Prop where
  | failed (hk : exec.runtimeCompletionKind ∈
        [some "managed_result", some "agent_done", some "tui_idle"])
      (e : ExecutionReportError) (he : exec.runtimeError = some e) :
      VerdictOf c exec ⟨.failed, .failed, some e, none⟩
  | completed (hk : exec.runtimeCompletionKind ∈
        [some "managed_result", some "agent_done", some "tui_idle"])
      (he : exec.runtimeError = none) (hr : isResource c = false) :
      VerdictOf c exec (.completed none)
  | delivered (hk : exec.runtimeCompletionKind ∈
        [some "managed_result", some "agent_done", some "tui_idle", some "timed_out"])
      (hr : isResource c = true) (captured : CapturedManagedResult) :
      VerdictOf c exec (.completed (some captured))
  | timedOut (hk : exec.runtimeCompletionKind = some "timed_out") :
      VerdictOf c exec (timedOutVerdict exec)
  | interrupted (hk : exec.runtimeCompletionKind = some "interrupted") :
      VerdictOf c exec ⟨.failed, .failed, some (exec.runtimeError.getD
        ⟨"runtime", "TERMINAL_EXITED", "Execution interrupted"⟩), none⟩
  | notStarted (hk : exec.runtimeCompletionKind = some "not_started") :
      VerdictOf c exec ⟨.blocked, .notStarted, some (exec.runtimeError.getD
        ⟨"orchestration", "EXECUTION_NOT_STARTED", "Execution blocked before agent dispatch"⟩), none⟩

/-- The calls that show what the pass has loaded last, and whether it has reported since. -/
def Call.isReading : Call → Bool
  | .loadActive | .reportJob _ => true
  | _ => false

def Entry.isReading : Entry → Bool
  | .call e _ => e.isReading
  | .stopped => true

/-- The record that was read last is `c`. -/
def Reading (c : ActiveAttempt) (log : List Entry) : Prop :=
  log.find? Entry.isReading = some (.call .loadActive (some (.ok (some c))))

theorem Reading.push {c : ActiveAttempt} {log : List Entry} (h : Reading c log) {e : Call}
    (he : e.isReading = false) (r : Option (Answer e)) : Reading c (.call e r :: log) := by
  unfold Reading
  rw [List.find?_cons_of_neg (by simp [Entry.isReading, he])]
  exact h

theorem Reading.mem {c : ActiveAttempt} {log : List Entry} (h : Reading c log) :
    .call .loadActive (some (.ok (some c))) ∈ log := List.mem_of_find?_eq_some h

/-- The record the pass has loaded, and the report it makes of it. -/
def Reported (dev : Device) (w : World) (o : OutboxRecord) : Prop :=
  ∃ c exec v closed startedMs completedMs createdAtMs,
    Sound dev c w ∧ c.attemptId ∈ w.used ∧ Reading c w.log ∧
    c.phase = .outcomeRecorded ∧ c.executor = some exec ∧ VerdictOf c exec v ∧
    o = outboxRecordOf dev c v (reportOf dev c exec v closed startedMs completedMs) createdAtMs

/-- The calls of the pass that sends the prompt of `a`, the last one first. -/
def sendingPass (a : ActiveAttempt) (tid : String) (target : Option LocalTarget)
    (baseline : Except String (Option Int)) : List Entry :=
  [.call .unlock (some ()),
   .call (.saveActive (a.mapExecutor (·.countSend (baseline.toOption.getD none)))) (some (.ok ())),
   .call (.agentStatusBaseline tid) (some baseline),
   .call .loadActive (some (.ok (some a))),
   .call .lock (some true),
   .call (.reconcileDispatch a tid) (some (.ok .definitelyNotDispatched)),
   .call (.loadConfig a.targetId) (some (.ok target)),
   .call .loadActive (some (.ok (some a)))]

/-- The prompt of the attempt `a` is sent in the pass that was told it had not been, after the
send was counted in the file. -/
structure SendReady (dev : Device) (w : World) (a : ActiveAttempt) (tid : String)
    (target : Option LocalTarget) (baseline : Except String (Option Int)) (rest : List Entry) :
    Prop where
  worker : isLogicalAgent target = false
  phase : a.phase = .dispatchIntent
  clear : a.executor.bind (·.lastDispatchOutcome) ≠ some "ambiguous"
  budget : (a.executor.map (·.dispatchSendCount)).getD 0 < 2
  terminal : a.executor.bind (·.terminalId) = some tid
  known : a.attemptId ∈ w.used
  sound : Sound dev (a.mapExecutor (·.countSend (baseline.toOption.getD none))) w
  log : w.log = sendingPass a tid target baseline ++ rest

/-- What the file has while the loop runs. -/
def WaitLoop.saved (l : WaitLoop) : ActiveAttempt :=
  l.active.mapExecutor fun exec =>
    { exec with
      turnStartedObserved := l.turnStartedObserved
      structuredLifecycleObserved := l.structuredLifecycleObserved }

/-- The invariant of the waiting loop. -/
structure Looping (dev : Device) (l : WaitLoop) (w : World) : Prop where
  sound : Sound dev l.saved w
  known : l.active.attemptId ∈ w.used
  phase : l.active.phase = .waiting
  terminal : l.active.executor.bind (·.terminalId) = some l.terminalId
  deadline : l.active.executor.bind (·.executionDeadlineMs) = some l.deadlineMs
  settled : Seen w.log → l.structuredLifecycleObserved = true

/-- The history record `h` closes the delivery of `o`: the report was accepted, or refused for an
operator cancel. -/
inductive Closes (dev : Device) (w : World) (o : OutboxRecord) :
    List Entry → HistoryRecord → Prop where
  | accepted (a : ActiveAttempt) (now : Int) (rest : List Entry) (hl : w.locked = true)
      (ha : Holds dev w a) (hi : a.jobId = o.jobId ∧ a.attemptId = o.attemptId)
      (hp : a.phase = .finalizedLocal)
      (hd : a.terminalReportSha256 = some (dev.computeReportSha256 o.report)) :
      Closes dev w o
        (.call .nowUtcMs (some now) :: .call .loadActive (some (.ok (some a))) ::
          .call .lock (some true) :: .call (.reportJob o) (some (.ok ())) :: rest)
        (deliveredHistory dev o a.targetId now)
  | refused (a : ActiveAttempt) (detail : JobDetail) (code message : String) (now : Int)
      (rest : List Entry) (hs : Sound dev a w) (hi : a.jobId = o.jobId ∧ a.attemptId = o.attemptId)
      (hd : isOperatorCancelled detail = true) :
      Closes dev w o
        (.call .nowUtcMs (some now) :: .call (.getJob o.jobId) (some (.ok detail)) ::
          .call .loadActive (some (.ok (some a))) ::
          .call (.reportJob o) (some (.error (.jobError code message))) :: rest)
        (cancelledHistory dev o.jobId o.attemptId a.targetId now)

/-- The phases from which a cancelled attempt is finalized at once. -/
def convergingPhases : List Phase := [.startIntent, .waiting, .recoveryRequired]

/-- The history record `h` of the operator cancel of the attempt in the file. -/
inductive Converges (dev : Device) (w : World) : List Entry → HistoryRecord → Prop where
  | cancelled (c : ActiveAttempt) (now : Int) (rest : List Entry) (hl : w.locked = true)
      (hc : Holds dev w c) (hp : c.phase ∈ convergingPhases) :
      Converges dev w
        (.call .nowUtcMs (some now) :: .call .loadActive (some (.ok (some c))) ::
          .call .lock (some true) :: rest)
        (cancelledHistory dev c.jobId c.attemptId c.targetId now)

/-- The reasons to remove the attempt. -/
inductive Removes (dev : Device) (w : World) : List Entry → Prop where
  | delivered (o : OutboxRecord) (h : HistoryRecord) (rest : List Entry)
      (hc : Closes dev w o rest h) :
      Removes dev w (.call (.removeOutbox o.jobId o.attemptId) (some true) ::
        .call (.saveHistory h) (some true) :: rest)
  | converged (h : HistoryRecord) (rest : List Entry) (hc : Converges dev w rest h) :
      Removes dev w (.call (.saveHistory h) (some true) :: rest)
  | rejected (c : ActiveAttempt) (code message : String) (rest : List Entry)
      (hl : w.locked = true) (hs : Sound dev c w) (hp : c.phase = .claimIntent) :
      Removes dev w (.call .lock (some true) ::
        .call (.claimJob c.jobId c.attemptId c.claimToken) (some (.error (.jobError code message))) ::
        .call .loadActive (some (.ok (some c))) :: rest)
  | recorded (c : ActiveAttempt) (h : HistoryRecord) (rest : List Entry)
      (hl : w.locked = true) (hs : Sound dev c w) (hp : c.phase = .finalizedLocal)
      (hi : h.jobId = c.jobId ∧ h.attemptId = c.attemptId)
      (hd : some h.terminalReportSha256 = c.terminalReportSha256) :
      Removes dev w (.call .lock (some true) ::
        .call (.loadHistory c.jobId c.attemptId) (some (.ok (some h))) ::
        .call (.outboxExists c.jobId c.attemptId) (some false) ::
        .call .loadActive (some (.ok (some c))) :: rest)

def Demand (dev : Device) (w : World) : Call → Prop
  | .saveActive a =>
    w.locked = true ∧ ((∃ c, Holds dev w c ∧ Reading c w.log ∧ Edit dev w c a) ∨
      (w.active = none ∧ isFreshIntent dev a = true ∧ a.attemptId ∉ w.used))
  | .removeActive => Removes dev w w.log
  | .prepare a _ => (∃ c, Sound dev c w ∧ c.attemptId = a.attemptId ∧ c.phase = .prepareIntent ∧
      a.attemptId ∈ w.used) ∧ ∃ b, Reading b w.log ∧ b.phase = .prepareIntent
  | .dispatch a tid => ∃ target baseline rest, SendReady dev w a tid target baseline rest
  | .wait a tid => ∃ l, a = l.active ∧ tid = l.terminalId ∧ Looping dev l w
  | .saveOutbox o => Reported dev w o
  | .removeOutbox j a => ∃ o h rest, j = o.jobId ∧ a = o.attemptId ∧
      w.log = .call (.saveHistory h) (some true) :: rest ∧ Closes dev w o rest h
  | .saveHistory h => (∃ o, Closes dev w o w.log h) ∨ Converges dev w w.log h
  | .reportJob o =>
    w.outboxFile o.jobId o.attemptId = some o ∧
      (o.managedResult.isSome = true → o.managedResultSha256.isSome = true →
        ∃ rest, w.log = .call (.submitJobResult o) (some (.ok ())) :: rest)
  | _ => True

/-- The record in the file after the call. -/
def After (dev : Device) (w : World) (c : ActiveAttempt) : Call → Prop
  | .saveActive a => c = a
  | _ => Holds dev w c

structure Needs (dev : Device) (w : World) (e : Call) : Prop where
  demand : Demand dev w e
  /-- What a wait has seen is on record before anything else happens. -/
  settled : e.isHousekeeping = false → Seen w.log → ∀ c, After dev w c e → Passed c

end Ceo.Attempt
