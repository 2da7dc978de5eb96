import Ceo.Attempt.Dispatch
import Ceo.Lib.Monitor

/-!
# What is awaited under `state.lock`

`state.lock` protects short transitions of the durable state; the adapter and
the coordinator are asked outside it. A run of `drive_active_attempt` is
followed here call by call: `lockHeld` reads off a trace whether the lock is
held at its end.
-/

namespace Ceo.Attempt

open Ceo.Lib Ceo.Jobs
open Ceo.Connector (Phase)

/-- The waiting loop, as far as `n` rounds of it. -/
def waitRounds (dev : Device) : Nat → WaitLoop → Prog Turn
  | 0, l => return .waiting l
  | n + 1, l => do
    match ← waitRound dev l with
    | .waiting l' => waitRounds dev n l'
    | turn => return turn

/-- `drive_active_attempt` with its waiting loop. -/
def driveRounds (dev : Device) (n : Nat) : Prog Turn := do
  match ← driveActiveAttempt dev with
  | .waiting l => waitRounds dev n l
  | turn => return turn

abbrev Trace := List (Exchange Call Answer)

/-- The calls that are awaited: those of the execution adapter, and the requests. -/
def Call.isAwaited : Call → Bool
  | .isReady | .prepare _ _ | .agentStatusBaseline _ | .reconcileDispatch _ _ | .dispatch _ _
  | .wait _ _ | .interrupt _ _ | .close _ => true
  | .claimJob _ _ _ | .startJob _ _ _ | .getJob _ | .submitJobResult _ | .reportJob _ => true
  | _ => false

def holding (held : Bool) : Exchange Call Answer → Bool
  | ⟨.lock, taken⟩ => held || taken
  | ⟨.unlock, _⟩ => false
  | _ => held

def lockHeld (t : Trace) : Bool := t.foldl holding false

/-- Nothing is awaited while the lock is held. -/
def LockFree (t : Trace) : Prop :=
  ∀ before x after, t = before ++ x :: after → lockHeld before = true → x.1.isAwaited = false

/-- The send of an explicit command's prompt is about to be counted: the adapter says that the
prompt has not gone out, the lock is taken, and the attempt is still the one that was loaded. -/
inductive CountsSend (dev : Device) : Trace → Prop where
  | intro {active current : ActiveAttempt} {target : Option LocalTarget} {terminalId : String}
    (device : active.deviceId = dev.deviceId) (server : active.serverOrigin = dev.serverOrigin)
    (phase : active.phase = .dispatchIntent) (command : isLogicalAgent target = false)
    (terminal : active.executor.bind (·.terminalId) = some terminalId)
    (clear : active.executor.bind (·.lastDispatchOutcome) ≠ some "ambiguous")
    (budget : (active.executor.map (·.dispatchSendCount)).getD 0 < 2)
    (same : current.attemptId = active.attemptId) :
    CountsSend dev
      [⟨.loadActive, .ok (some active)⟩, ⟨.loadConfig active.targetId, .ok target⟩,
        ⟨.reconcileDispatch active terminalId, .ok .definitelyNotDispatched⟩, ⟨.lock, true⟩,
        ⟨.loadActive, .ok (some current)⟩]

/-! ### the other calls -/

section discipline

variable {α β : Type} {dev : Device}

/-- Not awaited under the lock, and not the question that is. -/
def Tame (held : Bool) (e : Call) : Prop :=
  (held = true → e.isAwaited = false) ∧ ∀ terminalId, e ≠ .agentStatusBaseline terminalId

/-- Under the lock, and still under it at the end. -/
def Inside (p : Prog α) : Prop := p.Obeys holding Tame (fun held _ => held = true) true

/-- The lock is free before and after. -/
def Scoped (p : Prog α) : Prop := p.Obeys holding Tame (fun held _ => held = false) false

/-- A call that takes no lock and gives none back, and is not the question. -/
def Call.isOrdinary : Call → Bool
  | .lock | .unlock | .agentStatusBaseline _ => false
  | _ => true

theorem holding_ordinary {e : Call} (he : e.isOrdinary = true) (held : Bool) (r : Answer e) :
    holding held ⟨e, r⟩ = held := by
  cases e <;> first | rfl | cases he

theorem Tame.of_ordinary {e : Call} (he : e.isOrdinary = true) {held : Bool}
    (h : held = true → e.isAwaited = false) : Tame held e := by
  refine ⟨h, ?_⟩
  rintro terminalId rfl
  cases he

theorem Scoped.call {e : Call} {k : Answer e → Prog α} (he : e.isOrdinary = true)
    (hk : ∀ r, Scoped (k r)) : Scoped (.call e k) := by
  refine ⟨.of_ordinary he fun h => (by cases h), fun r => ?_⟩
  rw [holding_ordinary he]
  exact hk r

theorem Inside.call {e : Call} {k : Answer e → Prog α} (he : e.isOrdinary = true)
    (ha : e.isAwaited = false) (hk : ∀ r, Inside (k r)) : Inside (.call e k) := by
  refine ⟨.of_ordinary he fun _ => ha, fun r => ?_⟩
  rw [holding_ordinary he]
  exact hk r

theorem Scoped.done (a : α) : Scoped (.done a) := rfl

theorem Inside.done (a : α) : Inside (.done a) := rfl

theorem Scoped.ite {c : Prop} [Decidable c] {p q : Prog α} (hp : Scoped p) (hq : Scoped q) :
    Scoped (if c then p else q) := by
  split
  · exact hp
  · exact hq

theorem Inside.ite {c : Prop} [Decidable c] {p q : Prog α} (hp : Inside p) (hq : Inside q) :
    Inside (if c then p else q) := by
  split
  · exact hp
  · exact hq

theorem Scoped.bind {p : Prog α} {f : α → Prog β} (hp : Scoped p) (hf : ∀ a, Scoped (f a)) :
    Scoped (p >>= f) :=
  Program.Obeys.bind hp fun a held h => by
    obtain rfl : held = false := h
    exact hf a

theorem Inside.bind {p : Prog α} {f : α → Prog β} (hp : Inside p) (hf : ∀ a, Inside (f a)) :
    Inside (p >>= f) :=
  Program.Obeys.bind hp fun a held h => by
    obtain rfl : held = true := h
    exact hf a

theorem scoped_withLock {busy : α} {p : Prog α} (hp : Inside p) : Scoped (withLock busy p) := by
  refine ⟨⟨fun h => (by cases h), fun _ h => (by cases h)⟩, fun taken => ?_⟩
  cases taken with
  | false => exact Scoped.done busy
  | true =>
    have release (a : α) : (Program.call Call.unlock fun _ => .done a).Obeys holding Tame
        (fun held _ => held = false) true :=
      ⟨⟨fun _ => rfl, fun _ h => (by cases h)⟩, fun _ => Scoped.done a⟩
    exact @Program.Obeys.bind _ _ _ _ _ _ _ _ true _ p
      (fun a => .call .unlock fun _ => .done a) hp fun a held h => by
        obtain rfl : held = true := h
        exact release a

theorem inside_save {failed : DaemonError → α} {a : ActiveAttempt} {out : α} :
    Inside (save failed a out) := by
  refine .call rfl rfl fun r => ?_
  cases r with
  | error e => exact .done _
  | ok u => exact .done _

theorem scoped_withCurrent {leave : Turn → α} {active : ActiveAttempt}
    {f : ActiveAttempt → Prog α} (hf : ∀ current, Inside (f current)) :
    Scoped (withCurrent leave active f) := by
  refine scoped_withLock (.call rfl rfl fun r => ?_)
  match r with
  | .error e => exact .done _
  | .ok none => exact .done _
  | .ok (some current) =>
    exact .ite (hf current) (.done _)

theorem scoped_update {active : ActiveAttempt} {edit : ActiveAttempt → ActiveAttempt} {turn : Turn} :
    Scoped (update active edit turn) :=
  scoped_withCurrent fun _ => inside_save

theorem scoped_recover {active : ActiveAttempt} {message : String} :
    Scoped (recover active message) :=
  scoped_update

/-- The attempt is edited with the time it is under the lock. -/
theorem scoped_timed {active : ActiveAttempt} {edit : Int → ActiveAttempt → ActiveAttempt} :
    Scoped (withCurrent id active fun current => do
      let now ← nowUtcMs
      save .failed (edit now current) (.ok true)) :=
  scoped_withCurrent fun _ => .call rfl rfl fun _ => inside_save

/-! ### the outbox, and the operator's cancel -/

theorem inside_acknowledged {record : OutboxRecord} : Inside (acknowledged dev record) := by
  refine .call rfl rfl fun r => ?_
  match r with
  | .error e => exact .done _
  | .ok none => exact .done _
  | .ok (some active) =>
    refine .ite (.done _) (.ite (.done _) (.ite (.done _) ?_))
    refine .call rfl rfl fun now => .call rfl rfl fun saved => ?_
    cases saved with
    | false => exact .done _
    | true =>
      refine .call rfl rfl fun removed => ?_
      cases removed with
      | false => exact .done _
      | true =>
        refine .call rfl rfl fun cleared => ?_
        cases cleared <;> exact .done _

theorem scoped_refused {record : OutboxRecord} {code message : String} :
    Scoped (refused dev record code message) := by
  refine .ite ?_ (.done _)
  refine .call rfl fun r => ?_
  match r with
  | .error e => exact .done _
  | .ok none => exact .done _
  | .ok (some active) =>
    refine .ite ?_ (.done _)
    refine .call rfl fun r => ?_
    cases r with
    | error e => exact .done _
    | ok detail =>
      refine .ite ?_ (.done _)
      refine .call rfl fun now => .call rfl fun saved => ?_
      cases saved with
      | false => exact .done _
      | true =>
        refine .call rfl fun removed => ?_
        cases removed with
        | false => exact .done _
        | true =>
          refine .call rfl fun cleared => ?_
          cases cleared <;> exact .done _

theorem scoped_deliverReport {record : OutboxRecord} : Scoped (deliverReport dev record) := by
  refine .call rfl fun r => ?_
  match r with
  | .ok () => exact scoped_withLock inside_acknowledged
  | .error .unauthorized => exact .done _
  | .error (.jobError code message) => exact scoped_refused
  | .error (.serverUnavailable message) => exact .done _
  | .error (.http e) => exact .done _
  | .error (.other e) => exact .done _

theorem scoped_deliverOutboxRecord {record : OutboxRecord} :
    Scoped (deliverOutboxRecord dev record) := by
  refine .ite (.done _) (.ite ?_ scoped_deliverReport)
  refine .call rfl fun r => ?_
  match r with
  | .ok () => exact scoped_deliverReport
  | .error .unauthorized => exact .done _
  | .error (.jobError code message) => exact .done _
  | .error (.serverUnavailable message) => exact .done _
  | .error (.http e) => exact .done _
  | .error (.other e) => exact .done _

theorem scoped_flushRecords (files : List (String × String)) : Scoped (flushRecords dev files) := by
  induction files with
  | nil => exact .done _
  | cons file rest ih =>
    refine .call rfl fun r => ?_
    cases r with
    | error e => exact .done _
    | ok record =>
      refine scoped_deliverOutboxRecord.bind fun r => ?_
      cases r with
      | error e => exact .done _
      | ok u => exact ih

theorem scoped_flushOutbox : Scoped (flushOutbox dev) := by
  refine .call rfl fun r => ?_
  cases r with
  | error e => exact .done _
  | ok files => exact scoped_flushRecords files

theorem scoped_finalizeLocalOperatorCancelled {active : ActiveAttempt} :
    Scoped (finalizeLocalOperatorCancelled dev active) := by
  refine scoped_withLock (.call rfl rfl fun r => ?_)
  match r with
  | .error e => exact .done _
  | .ok none => exact .done _
  | .ok (some current) =>
    refine .ite ?_ (.done _)
    refine .call rfl rfl fun now => .call rfl rfl fun saved => ?_
    cases saved with
    | false => exact .done _
    | true =>
      refine .call rfl rfl fun cleared => ?_
      cases cleared <;> exact .done _

theorem scoped_reconcileWithOperatorCancel : Scoped (reconcileWithOperatorCancel dev) := by
  refine .call rfl fun r => ?_
  match r with
  | .error e => exact .done _
  | .ok none => exact .done _
  | .ok (some active) =>
    refine .ite (.done _) ?_
    refine .call rfl fun r => ?_
    cases r with
    | error e => exact .done _
    | ok detail =>
      refine .ite ?_ (.done _)
      refine scoped_finalizeLocalOperatorCancelled.bind fun r => ?_
      cases r <;> exact .done _

/-! ### the phases -/

theorem scoped_driveClaimIntent {active : ActiveAttempt} : Scoped (driveClaimIntent dev active) := by
  refine .call rfl fun r => ?_
  cases r with
  | ok resp =>
    dsimp only [Program.bind]
    split
    · exact scoped_recover
    · split
      · exact .done _
      · refine scoped_withCurrent fun current => .call rfl rfl fun stored => ?_
        cases stored with
        | false => exact .done _
        | true => exact inside_save
  | error e =>
    cases e with
    | jobError code message =>
      refine .ite ?_ (.ite scoped_recover (.done _))
      refine scoped_withLock (.call rfl rfl fun removed => ?_)
      cases removed <;> exact .done _
    | unauthorized | serverUnavailable _ | http _ | other _ => exact .done _

theorem scoped_driveStartIntent {active : ActiveAttempt} : Scoped (driveStartIntent dev active) := by
  refine .call rfl fun r => ?_
  cases r with
  | ok ack => exact .ite scoped_update scoped_recover
  | error e =>
    cases e with
    | jobError code message =>
      refine .ite (.ite ?_ scoped_recover) (.done _)
      refine .call rfl fun r => ?_
      cases r with
      | error e => exact scoped_recover
      | ok detail =>
        refine .ite ?_ scoped_recover
        refine scoped_finalizeLocalOperatorCancelled.bind fun r => ?_
        cases r <;> exact .done _
    | unauthorized | serverUnavailable _ | http _ | other _ => exact .done _

theorem scoped_prepareAgent {active : ActiveAttempt} {target : LocalTarget} :
    Scoped (prepareAgent active target) := by
  refine .call rfl fun r => ?_
  match r with
  | .ok (.ready prep) =>
    refine .call rfl fun made => ?_
    cases made with
    | false => exact .done _
    | true => exact scoped_update
  | .ok (.retryable none _) => exact .done _
  | .ok (.retryable (some ident) _) => exact scoped_update
  | .ok (.notReady execution reason) => exact scoped_timed
  | .ok (.recoveryRequired execution reason) => exact scoped_update
  | .error e => exact .ite scoped_recover (.done _)

theorem scoped_startClock {active : ActiveAttempt} {now : Int} : Scoped (startClock active now) := by
  refine scoped_withCurrent fun current => ?_
  dsimp only
  split
  · exact inside_save
  · exact .ite inside_save inside_save

theorem scoped_drivePrepareIntent {active : ActiveAttempt} : Scoped (drivePrepareIntent active) := by
  refine .call rfl fun ready => ?_
  cases ready with
  | false => exact .done _
  | true =>
    refine .call rfl fun r => ?_
    match r with
    | .error e => exact .done _
    | .ok none => exact scoped_recover
    | .ok (some target) =>
      refine .call rfl fun now => .ite ?_ scoped_prepareAgent
      refine scoped_startClock.bind fun r => ?_
      cases r with
      | error turn => exact .done _
      | ok u => exact scoped_prepareAgent

theorem scoped_drivePrepared {active : ActiveAttempt} : Scoped (drivePrepared active) := by
  refine .call rfl fun r => ?_
  cases r with
  | error e => exact .done _
  | ok target =>
    exact .ite (.ite scoped_update scoped_recover) (.call rfl fun now => scoped_update)

theorem scoped_sendPrompt {active : ActiveAttempt} {terminalId : String} :
    Scoped (sendPrompt active terminalId) := by
  refine .call rfl fun r => ?_
  match r with
  | .error e => exact .done _
  | .ok (.accepted requestId acceptedAtMs turnStarted) => exact scoped_update
  | .ok (.knownRejectedBeforeAcceptance reason) => exact scoped_update
  | .ok (.recoveryRequired code message) => exact scoped_recover
  | .ok (.ambiguousTransportFailure e) => exact scoped_update

theorem scoped_recordCompletion {l : WaitLoop} {c : Completion} : Scoped (recordCompletion l c) :=
  scoped_timed

theorem scoped_timedOut {l : WaitLoop} : Scoped (timedOut l) := by
  refine .ite ?_ scoped_recordCompletion
  refine .call rfl fun r => ?_
  cases r <;> exact scoped_recordCompletion

theorem scoped_finished {l : WaitLoop} {kind missing : String} :
    Scoped (finished l kind missing) := by
  refine .ite ?_ scoped_recordCompletion
  refine .call rfl fun r => ?_
  match r with
  | .ok captured => exact scoped_recordCompletion
  | .error .notFound => exact scoped_recordCompletion
  | .error (.other text) => exact scoped_recordCompletion

theorem scoped_observed {l : WaitLoop} (outcome : WaitOutcome) : Scoped (observed l outcome) := by
  cases outcome with
  | workingObserved => exact .ite (.done _) scoped_update
  | agentSeen => exact .ite (.done _) scoped_update
  | agentDone => exact .ite scoped_finished (.ite (.done _) scoped_update)
  | tuiIdle => exact .ite (.done _) (.ite scoped_finished (.done _))
  | interrupted reason => exact scoped_recordCompletion
  | timedOut => exact .done _

theorem scoped_observe {l : WaitLoop} : Scoped (observe l) := by
  refine .call rfl fun now => .ite scoped_timedOut ?_
  refine .call rfl fun r => ?_
  cases r with
  | error e => exact .done _
  | ok outcome => exact scoped_observed outcome

theorem scoped_barrier {l : WaitLoop} : Scoped (barrier l) := by
  refine .ite ?_ scoped_observe
  refine .call rfl fun r => ?_
  cases r with
  | error e => exact scoped_observe
  | ok captured => exact scoped_recordCompletion

theorem scoped_waitRound {l : WaitLoop} : Scoped (waitRound dev l) := by
  refine .call rfl fun (now : Int) => .ite ?_ scoped_timedOut
  refine .call rfl fun r => ?_
  cases r with
  | error e => exact scoped_barrier
  | ok detail =>
    refine .ite (.call rfl fun _ => ?_) scoped_barrier
    refine scoped_finalizeLocalOperatorCancelled.bind fun r => ?_
    cases r <;> exact .done _

theorem scoped_waitRounds (n : Nat) (l : WaitLoop) : Scoped (waitRounds dev n l) := by
  induction n generalizing l with
  | zero => exact .done _
  | succ n ih =>
    refine scoped_waitRound.bind fun turn => ?_
    cases turn with
    | ok driven => exact .done _
    | failed e => exact .done _
    | waiting l' => exact ih l'

theorem scoped_driveWaiting {active : ActiveAttempt} : Scoped (driveWaiting active) := by
  unfold driveWaiting
  split
  · exact scoped_recover
  · split
    · exact scoped_recover
    · split
      · exact scoped_recover
      · exact .done _

theorem scoped_captureOrFail {active : ActiveAttempt} {pre : String} :
    Scoped (captureOrFail active pre) := by
  refine .call rfl fun r => ?_
  match r with
  | .ok captured => exact .done _
  | .error .notFound => exact .done _
  | .error (.other text) => exact .done _

theorem scoped_completedResource {active : ActiveAttempt} : Scoped (completedResource active) := by
  refine .call rfl fun found => ?_
  cases found with
  | false => exact scoped_captureOrFail
  | true =>
    refine .call rfl fun r => ?_
    cases r with
    | error e => exact scoped_captureOrFail
    | ok captured => exact .done _

theorem scoped_timedOutResource {active : ActiveAttempt} {exec : AttemptExecutorState} :
    Scoped (timedOutResource active exec) := by
  refine .call rfl fun found => ?_
  cases found with
  | false =>
    refine .call rfl fun r => ?_
    cases r <;> exact .done _
  | true =>
    refine .call rfl fun r => ?_
    cases r <;> exact .done _

theorem scoped_verdict {active : ActiveAttempt} {exec : AttemptExecutorState} :
    Scoped (verdict active exec) := by
  by_cases hk : exec.runtimeCompletionKind ∈ completedKinds
  · cases hx : exec.runtimeError with
    | some e =>
      rw [verdict_of_error hk hx]
      exact .done _
    | none =>
      rw [verdict_of_completed hk hx]
      exact .ite scoped_completedResource (.done _)
  have hother : ∀ k ∈ completedKinds, exec.runtimeCompletionKind ≠ k := fun k hm he =>
    hk (he ▸ hm)
  unfold verdict
  split
  · next hk => exact absurd hk (hother _ (by simp [completedKinds]))
  · next hk => exact absurd hk (hother _ (by simp [completedKinds]))
  · next hk => exact absurd hk (hother _ (by simp [completedKinds]))
  · exact .ite scoped_timedOutResource (.done _)
  · exact .done _
  · exact .done _
  · exact scoped_recover.bind fun turn => .done _

theorem scoped_cleanup {active : ActiveAttempt} {exec : AttemptExecutorState}
    {status : ExecutionStatus} : Scoped (cleanup active exec status) := by
  unfold cleanup
  split
  · split
    · exact .done _
    · refine .call rfl fun r => ?_
      cases r <;> exact .done _
  · split
    · exact .done _
    · exact .call rfl fun _ => .done _
  · exact .done _

theorem scoped_timeOrNow (time : Option Int) : Scoped (timeOrNow time) := by
  cases time with
  | none => exact .call rfl fun now => .done _
  | some at_ => exact .done _

theorem scoped_saveReport {active : ActiveAttempt} {v : Verdict} {report : ExecutionReport} :
    Scoped (saveReport dev active v report) := by
  unfold saveReport
  split
  · exact .done _
  · refine .call rfl fun now => .call rfl fun r => ?_
    cases r with
    | error e => exact .done _
    | ok u =>
      cases u
      dsimp only [Program.bind]
      refine Scoped.bind (scoped_withCurrent fun current => inside_save) fun finalized => ?_
      cases finalized with
      | error turn => exact .done _
      | ok u =>
        cases u
        exact scoped_flushOutbox.bind fun _ => .done _

theorem scoped_driveOutcomeRecorded {active : ActiveAttempt} :
    Scoped (driveOutcomeRecorded dev active) := by
  unfold driveOutcomeRecorded
  split
  · exact .done _
  · refine scoped_verdict.bind fun r => ?_
    cases r with
    | error turn => exact .done _
    | ok v =>
      refine scoped_cleanup.bind fun closed => ?_
      cases closed with
      | none => exact .done _
      | some closed =>
        exact (scoped_timeOrNow _).bind fun _ => (scoped_timeOrNow _).bind fun _ => scoped_saveReport

theorem scoped_driveFinalizedLocal {active : ActiveAttempt} :
    Scoped (driveFinalizedLocal dev active) := by
  refine .call rfl fun found => ?_
  cases found with
  | true =>
    refine .call rfl fun r => ?_
    cases r with
    | error e => exact .done _
    | ok outbox =>
      refine .ite ?_ (.done _)
      refine scoped_deliverOutboxRecord.bind fun r => ?_
      match r with
      | .ok () => exact .done _
      | .error .authRequired => exact .done _
      | .error (.recoveryRequired message) => exact .done _
      | .error (.retryable message) => exact .done _
      | .error .io => exact .done _
      | .error .identityMismatch => exact .done _
      | .error (.invalid e) => exact .done _
  | false =>
    refine .call rfl fun r => ?_
    match r with
    | .error e => exact .done _
    | .ok none => exact .done _
    | .ok (some hist) =>
      refine .ite ?_ (.done _)
      refine scoped_withLock (.call rfl rfl fun removed => ?_)
      cases removed <;> exact .done _

theorem inside_hasCapturedResult {current : ActiveAttempt} :
    Inside (hasCapturedResult current) := by
  refine .ite ?_ (.done _)
  refine .call rfl rfl fun found => ?_
  cases found with
  | true => exact .done _
  | false =>
    refine .call rfl rfl fun r => ?_
    cases r <;> exact .done _

theorem scoped_driveRecoveryRequired {active : ActiveAttempt} :
    Scoped (driveRecoveryRequired dev active) := by
  refine scoped_reconcileWithOperatorCancel.bind fun r => ?_
  cases r with
  | finalized => exact .done _
  | noMarker => exact .done _
  | blocked reason =>
    refine .call rfl fun r => ?_
    cases r with
    | error e => exact .done _
    | ok detail =>
      refine .ite ?_ (.done _)
      exact scoped_withCurrent fun current => inside_hasCapturedResult.bind fun captured =>
        .call rfl rfl fun now => inside_save

/-- Every phase but the dispatch. -/
theorem scoped_drivePhase {active : ActiveAttempt} (h : active.phase ≠ .dispatchIntent) :
    Scoped (drivePhase dev active) := by
  unfold drivePhase
  split
  · exact scoped_driveClaimIntent
  · exact scoped_update
  · exact scoped_driveStartIntent
  · exact scoped_update
  · exact scoped_drivePrepareIntent
  · exact scoped_drivePrepared
  · exact absurd ‹active.phase = _› h
  · exact scoped_update
  · exact scoped_driveWaiting
  · exact scoped_driveOutcomeRecorded
  · exact scoped_driveFinalizedLocal
  · exact scoped_driveRecoveryRequired
  · exact scoped_recover

/-! ### the dispatch -/

/-- After the trace `pre`: no call but the count of a send breaks the rule, and the lock is free
at the end. -/
structure Disciplined (dev : Device) (pre : Trace) (p : Prog α) : Prop where
  calls : ∀ {t e k}, p.Reaches t (.call e k) →
    Tame (lockHeld (pre ++ t)) e ∨ CountsSend dev (pre ++ t)
  ends : ∀ {t a}, p.Reaches t (.done a) → lockHeld (pre ++ t) = false

variable {pre : Trace}

theorem lockHeld_append (t u : Trace) : lockHeld (t ++ u) = u.foldl holding (lockHeld t) :=
  List.foldl_append

theorem lockHeld_snoc (t : Trace) (x : Exchange Call Answer) :
    lockHeld (t ++ [x]) = holding (lockHeld t) x := lockHeld_append t [x]

theorem Disciplined.of_obeys {p : Prog α}
    (h : p.Obeys holding Tame (fun held _ => held = false) (lockHeld pre)) :
    Disciplined dev pre p where
  calls hr := by
    have := h.reaches hr
    rw [← lockHeld_append] at this
    exact .inl this.1
  ends hr := by
    have := h.reaches hr
    rwa [← lockHeld_append] at this

theorem Disciplined.of_scoped {p : Prog α} (hpre : lockHeld pre = false) (h : Scoped p) :
    Disciplined dev pre p :=
  .of_obeys (by rwa [hpre])

theorem Disciplined.call {e : Call} {k : Answer e → Prog α}
    (hok : Tame (lockHeld pre) e ∨ CountsSend dev pre)
    (hk : ∀ r, Disciplined dev (pre ++ [⟨e, r⟩]) (k r)) : Disciplined dev pre (.call e k) where
  calls {t e' k'} h := by
    cases h with
    | refl => simpa using hok
    | call rest => simpa using (hk _).calls rest
  ends {t a} h := by
    cases h with
    | call rest => simpa using (hk _).ends rest

theorem Disciplined.bind {p : Prog α} {f : α → Prog β} (hp : Disciplined dev pre p)
    (hf : ∀ t a, lockHeld (pre ++ t) = false → p.Reaches t (.done a) →
      Disciplined dev (pre ++ t) (f a)) : Disciplined dev pre (p >>= f) where
  calls {t e k} h := by
    rcases Program.reaches_bind h with ⟨p', hp', hq⟩ | ⟨t₁, t₂, a, rfl, ha, hr⟩
    · cases p' with
      | call e' k' =>
        cases hq
        exact hp.calls hp'
      | done a =>
        have := (hf t a (hp.ends hp') hp').calls (.of_eq hq)
        simpa using this
    · rw [← List.append_assoc]
      exact (hf t₁ a (hp.ends ha) ha).calls hr
  ends {t b} h := by
    rcases Program.reaches_bind h with ⟨p', hp', hq⟩ | ⟨t₁, t₂, a, rfl, ha, hr⟩
    · cases p' with
      | call e' k' => cases hq
      | done a =>
        have := (hf t a (hp.ends hp') hp').ends (.of_eq hq)
        simpa using this
    · rw [← List.append_assoc]
      exact (hf t₁ a (hp.ends ha) ha).ends hr

/-- The count of a send, after the trace that leads to it. -/
theorem disciplined_countSend {active : ActiveAttempt} {terminalId : String}
    (hpre : lockHeld pre = false)
    (hcount : ∀ current, current.attemptId = active.attemptId →
      CountsSend dev (pre ++ [⟨.lock, true⟩] ++ [⟨.loadActive, .ok (some current)⟩])) :
    Disciplined dev pre (countSend active terminalId) := by
  have release (out : Except Turn Unit) : (Program.call Call.unlock fun _ => .done out).Obeys
      holding Tame (fun held _ => held = false) true :=
    ⟨⟨fun _ => rfl, fun _ h => (by cases h)⟩, fun _ => Scoped.done out⟩
  have free {t : Trace} (out : Except Turn Unit) (ht : lockHeld t = true) :
      Disciplined dev t (.call Call.unlock fun _ => .done out) :=
    .of_obeys (by rw [ht]; exact release out)
  refine .call (.inl ⟨fun _ => rfl, fun _ h => (by cases h)⟩) fun taken => ?_
  cases taken with
  | false =>
    refine .of_scoped ?_ (.done _)
    rw [lockHeld_snoc, hpre]
    rfl
  | true =>
    have held : lockHeld (pre ++ [⟨.lock, true⟩]) = true := by
      rw [lockHeld_snoc, hpre]
      rfl
    refine .call (.inl ⟨fun _ => rfl, fun _ h => (by cases h)⟩) fun r => ?_
    have held' : lockHeld (pre ++ [⟨.lock, true⟩] ++ [⟨.loadActive, r⟩]) = true := by
      rw [lockHeld_snoc, held]
      rfl
    match r with
    | .error e => exact free _ held'
    | .ok none => exact free _ held'
    | .ok (some current) =>
      show Disciplined dev _ ((if current.attemptId = active.attemptId then _ else _) >>=
        fun out => Program.call Call.unlock fun _ => .done out)
      by_cases same : current.attemptId = active.attemptId
      · rw [if_pos same]
        refine .call (.inr (hcount current same)) fun baseline => .of_obeys ?_
        rw [lockHeld_snoc, held']
        exact @Program.Obeys.bind _ _ _ _ _ _ _ _ true _ _
          (fun out => .call .unlock fun _ => .done out) inside_save fun out now h => by
            obtain rfl : now = true := h
            exact release out
      · rw [if_neg same]
        exact free _ held'

theorem disciplined_driveDispatchIntent {active : ActiveAttempt}
    (device : active.deviceId = dev.deviceId) (server : active.serverOrigin = dev.serverOrigin)
    (phase : active.phase = .dispatchIntent) :
    Disciplined dev [⟨.loadActive, .ok (some active)⟩] (driveDispatchIntent active) := by
  refine .call (.inl (.of_ordinary rfl fun h => (by cases h))) fun r => ?_
  match r with
  | .error e => exact .of_scoped rfl (.done _)
  | .ok target =>
    have logical : Scoped (if active.hasPositiveDispatch then advanceTo .startIntent active
        else recover active (legacyInFlight "DispatchIntent")) := .ite scoped_update scoped_recover
    show Disciplined dev _ (if isLogicalAgent target then _ else _)
    by_cases command : isLogicalAgent target = true
    · rw [if_pos command]
      exact .of_scoped rfl logical
    · rw [if_neg command]
      cases terminal : active.executor.bind (·.terminalId) with
      | none => exact .of_scoped rfl scoped_recover
      | some terminalId =>
        refine .call (.inl (.of_ordinary rfl fun h => (by cases h))) fun r => ?_
        match r with
        | .error e => exact .of_scoped rfl (.done _)
        | .ok (.accepted requestId) => exact .of_scoped rfl scoped_timed
        | .ok .ambiguous => exact .of_scoped rfl scoped_recover
        | .ok .definitelyNotDispatched =>
          show Disciplined dev _ (resend active terminalId)
          unfold resend
          by_cases clear : active.executor.bind (·.lastDispatchOutcome) = some "ambiguous"
          · rw [if_pos clear]
            exact .of_scoped rfl scoped_recover
          · rw [if_neg clear]
            by_cases budget : (active.executor.map (·.dispatchSendCount)).getD 0 ≥ 2
            · rw [if_pos budget]
              exact .of_scoped rfl scoped_timed
            · rw [if_neg budget]
              refine Disciplined.bind (disciplined_countSend rfl fun current same => ?_) ?_
              · exact .intro device server phase (by simpa using command) terminal clear
                  (by omega) same
              · rintro t (turn | _) free -
                · exact .of_scoped free (.done _)
                · exact .of_scoped free scoped_sendPrompt

theorem disciplined_driveActiveAttempt : Disciplined dev [] (driveActiveAttempt dev) := by
  refine .call (.inl (.of_ordinary rfl fun h => (by cases h))) fun r => ?_
  match r with
  | .error e => exact .of_scoped rfl (.done _)
  | .ok none => exact .of_scoped rfl (.done _)
  | .ok (some active) =>
    show Disciplined dev _ (if active.deviceId ≠ dev.deviceId ∨
      active.serverOrigin ≠ dev.serverOrigin then _ else drivePhase dev active)
    by_cases other : active.deviceId ≠ dev.deviceId ∨ active.serverOrigin ≠ dev.serverOrigin
    · rw [if_pos other]
      exact .of_scoped rfl (.done _)
    · rw [if_neg other]
      push Not at other
      by_cases phase : active.phase = .dispatchIntent
      · have := disciplined_driveDispatchIntent other.1 other.2 phase
        unfold drivePhase
        rw [phase]
        exact this
      · exact .of_scoped rfl (scoped_drivePhase phase)

theorem disciplined_driveRounds (n : Nat) : Disciplined dev [] (driveRounds dev n) := by
  refine disciplined_driveActiveAttempt.bind fun t turn free _ => ?_
  cases turn with
  | ok driven => exact .of_scoped free (.done _)
  | failed e => exact .of_scoped free (.done _)
  | waiting l => exact .of_scoped free (scoped_waitRounds n l)

/-- The baseline of the agent is asked for after the trace. -/
def Asks (p : Prog α) (t : Trace) : Prop :=
  ∃ terminalId k, p.Reaches t (.call (.agentStatusBaseline terminalId) k)

theorem Asks.call {e : Call} {k : Answer e → Prog α} {r : Answer e} {t : Trace}
    (h : Asks (k r) t) : Asks (.call e k) (⟨e, r⟩ :: t) :=
  let ⟨terminalId, _, h⟩ := h
  ⟨terminalId, _, .call h⟩

theorem Asks.bind {p : Prog α} {f : α → Prog β} {t : Trace} (h : Asks p t) : Asks (p >>= f) t :=
  let ⟨terminalId, _, h⟩ := h
  ⟨terminalId, _, h.bind⟩

theorem asks_countSend {active current : ActiveAttempt} (terminalId : String)
    (same : current.attemptId = active.attemptId) :
    Asks (countSend active terminalId) [⟨.lock, true⟩, ⟨.loadActive, .ok (some current)⟩] := by
  refine Asks.call (Asks.call ?_)
  show Asks ((if current.attemptId = active.attemptId then _ else _) >>= _) []
  rw [if_pos same]
  exact ⟨terminalId, _, .refl _⟩

theorem CountsSend.asks {t : Trace} (h : CountsSend dev t) : Asks (driveActiveAttempt dev) t := by
  obtain ⟨device, server, phase, command, terminal, clear, budget, same⟩ := h
  rename_i active current target terminalId
  refine Asks.call ?_
  show Asks (if active.deviceId ≠ dev.deviceId ∨
    active.serverOrigin ≠ dev.serverOrigin then _ else drivePhase dev active) _
  rw [if_neg (by simp [device, server])]
  unfold drivePhase
  rw [phase]
  refine Asks.call ?_
  show Asks (if isLogicalAgent target then _ else _) _
  rw [if_neg (by simp [command]), terminal]
  refine Asks.call ?_
  show Asks (resend active terminalId) _
  unfold resend
  rw [if_neg clear, if_neg (by omega)]
  exact (asks_countSend terminalId same).bind

end discipline

/-- A run of `drive_active_attempt` awaits nothing under the lock, exactly if at no point of it the
send of a prompt is about to be counted. -/
theorem lockFree_iff (dev : Device) (n : Nat) {t : Trace} {q : Prog Turn}
    (h : (driveRounds dev n).Reaches t q) :
    LockFree t ↔ ∀ before x after, t = before ++ x :: after → ¬CountsSend dev before := by
  refine ⟨fun free before x after ht counts => ?_, fun never before x after ht held => ?_⟩
  · obtain ⟨k, hk⟩ := (ht ▸ h : (driveRounds dev n).Reaches _ q).split
    obtain ⟨terminalId, k', hk'⟩ : Asks (driveRounds dev n) before := counts.asks.bind
    have hx : Program.call x.1 k = Program.call (.agentStatusBaseline terminalId) k' :=
      hk.unique hk'
    have held : lockHeld before = true := by
      cases counts
      rfl
    have := free before x after ht held
    injection hx with hx
    rw [hx] at this
    cases this
  · obtain ⟨k, hk⟩ := (ht ▸ h : (driveRounds dev n).Reaches _ q).split
    rcases (disciplined_driveRounds n).calls hk with tame | counts
    · exact tame.1 held
    · exact absurd counts (never before x after ht)

namespace Sample

def intending : ActiveAttempt := (prepared "none").inPhase .dispatchIntent

/-- The trace up to the count of the send. -/
def counting : Trace :=
  [⟨.loadActive, .ok (some intending)⟩, ⟨.loadConfig intending.targetId, .ok (some target)⟩,
    ⟨.reconcileDispatch intending "terminal-1", .ok .definitelyNotDispatched⟩, ⟨.lock, true⟩,
    ⟨.loadActive, .ok (some intending)⟩]

theorem countsSend : CountsSend .sample counting :=
  .intro rfl rfl rfl rfl rfl (by decide) (by decide) rfl

/-- The adapter knows of the prompt. -/
def settled : Trace :=
  [⟨.loadActive, .ok (some intending)⟩, ⟨.loadConfig intending.targetId, .ok (some target)⟩,
    ⟨.reconcileDispatch intending "terminal-1", .ok (.accepted "request-1")⟩, ⟨.lock, false⟩]

theorem reaches_settled :
    (driveRounds .sample 0).Reaches settled (.done (.failed .io)) :=
  .call (.call (.call (.call (.refl _))))

end Sample

theorem lockFree_iff_sample : LockFree Sample.settled := by
  refine (lockFree_iff .sample 0 Sample.reaches_settled).2 ?_
  rintro before x after ht ⟨⟩
  simp [Sample.settled] at ht

/-- The baseline is asked for with the lock held. -/
theorem baseline_under_lock :
    ∃ (n : Nat) (t : Trace) (q : Prog Turn), (driveRounds .sample n).Reaches t q ∧ ¬LockFree t := by
  obtain ⟨terminalId, k, h⟩ := Sample.countsSend.asks
  refine ⟨0, Sample.counting ++ [⟨.agentStatusBaseline terminalId, .ok none⟩], _,
    (h.trans (.call (.refl (k (.ok none))))).bind, fun free => ?_⟩
  have := free Sample.counting ⟨.agentStatusBaseline terminalId, .ok none⟩ [] rfl rfl
  cases this

end Ceo.Attempt
