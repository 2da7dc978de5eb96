import Ceo.Jobs.Device
import Ceo.Jobs.Effect

/-!
# The connector daemon

One device: its state directory, its daemon (`daemon.rs`, `outbox.rs`,
`attempt_convergence.rs`), the network between it and the coordinator, and
the store the coordinator serves it from. The daemon stops between any two of
its steps when it crashes, and what it has in memory is lost; a request or a
reply may be lost, and a request may arrive more than once.

Left out is what no step here decides by: the payload of a job, the executor,
and the submission of a managed result, which comes before the report.
-/

namespace Ceo.Connector

open Ceo.Lib Ceo.Jobs

/-! ### the state directory -/

/-- `AttemptPhase` (`scheduler.rs`), the phase of the local attempt. -/
inductive Phase where
  | claimIntent | claimed | startIntent | started | prepareIntent | prepared | dispatchIntent
  | dispatched | waiting | outcomeRecorded | finalizedLocal | recoveryRequired | legacyRunning
  deriving DecidableEq, Repr

/-- `active-attempt.json` -/
structure ActiveAttempt where
  jobId : String
  workspaceId : String
  targetId : String
  attemptId : String
  claimToken : String
  phase : Phase
  terminalReportSha256 : Option String
  deriving DecidableEq, Repr

structure OutboxRecord where
  jobId : String
  attemptId : String
  claimToken : String
  report : ExecutionReport
  deriving DecidableEq, Repr

structure HistoryRecord where
  jobId : String
  attemptId : String
  targetId : String
  terminalReportSha256 : String
  deriving DecidableEq, Repr

/-- The outbox and the history have one file for a job and an attempt. -/
structure StateDir where
  activeAttempt : Option ActiveAttempt
  outbox : List OutboxRecord
  history : List HistoryRecord
  deriving DecidableEq, Repr

namespace StateDir

def outboxFile (s : StateDir) (jobId attemptId : String) : Option OutboxRecord :=
  s.outbox.find? fun o => o.jobId == jobId && o.attemptId == attemptId

def historyFile (s : StateDir) (jobId attemptId : String) : Option HistoryRecord :=
  s.history.find? fun h => h.jobId == jobId && h.attemptId == attemptId

def setPhase (s : StateDir) (a : ActiveAttempt) (ph : Phase) : StateDir :=
  { s with activeAttempt := some { a with phase := ph } }

end StateDir

/-- What the host gives: its device id, SHA-256 as hex, and the JSON of a report. -/
structure Host where
  deviceId : String
  sha256 : String → String
  reportJson : ExecutionReport → String

def Host.reportSha256 (host : Host) (report : ExecutionReport) : String :=
  host.sha256 (host.reportJson report)

def Host.operatorCancelDigest (host : Host) (jobId attemptId : String) : String :=
  host.sha256 ("ceo:operator-cancel\x00" ++ jobId ++ "\x00" ++ attemptId)

/-! ### the network -/

inductive Body where
  | claim (jobId attemptId claimToken : String)
  | start (jobId attemptId claimToken : String)
  | report (jobId attemptId claimToken : String) (report : ExecutionReport)
  | getJob (jobId : String)
  deriving DecidableEq, Repr

/-- A request carries the number of the call that waits for its reply. -/
structure Request where
  call : Nat
  body : Body
  deriving DecidableEq, Repr

inductive Answer where
  | claim (answer : Except V2Error Unit)
  | start (answer : Except V2Error Unit)
  | report (answer : Except V2Error Unit)
  | detail (answer : Except V2Error DeviceDetail)

/-- A claim between the coordinator's read of the job and its script. -/
structure Pending where
  request : Request
  params : ClaimParams

/-! ### the daemon -/

/-- A write to the state directory that a crash may come before. -/
inductive FileStep where
  | writeHistory (h : HistoryRecord)
  | removeOutbox (jobId attemptId : String)
  | removeActive
  /-- The attempt is finalized once its report is in the outbox. -/
  | finalize (attemptId : String) (terminalReportSha256 : String)
  deriving DecidableEq, Repr

/-- What the daemon waits for, with what it has loaded. -/
inductive Await where
  | claim (active : ActiveAttempt)
  | start (active : ActiveAttempt)
  /-- A refused start: was the job cancelled? -/
  | startRefused (active : ActiveAttempt)
  | cancelPoll (active : ActiveAttempt)
  | report (record : OutboxRecord)
  /-- A refused report: was the job cancelled? -/
  | reportRefused (record : OutboxRecord) (targetId : String)
  | reconcile (active : ActiveAttempt)
  | recover (active : ActiveAttempt)
  deriving DecidableEq, Repr

inductive Pc where
  | off
  | loop
  | await (request : Request) (stage : Await)
  | work (steps : List FileStep)
  deriving DecidableEq, Repr

/-- An attempt the device has made up for a job. -/
structure Intent where
  jobId : String
  attemptId : String
  claimToken : String
  deriving DecidableEq, Repr

def ActiveAttempt.intent (a : ActiveAttempt) : Intent := ⟨a.jobId, a.attemptId, a.claimToken⟩

structure World where
  redis : Redis
  clock : Nat
  /-- `resolveEligibleBinding` of this device. -/
  eligible : String → Option EligibleBinding
  requests : List Request
  pending : List Pending
  replies : List (Request × Answer)
  dir : StateDir
  pc : Pc
  nextCall : Nat
  /-- The attempts made up so far; their ids are fresh UUIDs. -/
  intents : List Intent

def World.init : World where
  redis := Redis.empty
  clock := 0
  eligible _ := none
  requests := []
  pending := []
  replies := []
  dir := ⟨none, [], []⟩
  pc := .off
  nextCall := 0
  intents := []

/-! ### the coordinator -/

/-- The coordinator takes up request `i`: a claim it reads the job for, and what it cannot turn
away waits for its script; anything else it answers. -/
def serve (host : Host) (w : World) (i now nowMs : Nat) : Option World :=
  match w.requests[i]? with
  | none => none
  | some q =>
    let rest := { w with requests := w.requests.eraseIdx i, clock := now }
    match q.body with
    | .claim jobId attemptId claimToken =>
      match claimRequest host.sha256 w.eligible host.deviceId jobId attemptId claimToken w.redis with
      | .error e => some { rest with replies := (q, .claim (.error e)) :: w.replies }
      | .ok p => some { rest with pending := ⟨q, p⟩ :: w.pending }
    | .start jobId attemptId claimToken =>
      let res := startJob now ⟨jobId, attemptId, host.deviceId, host.sha256 claimToken⟩ w.redis
      some { rest with
        redis := res.2, replies := (q, .start (res.1.map fun _ => ())) :: w.replies }
    | .report jobId attemptId claimToken report =>
      let res := reportJob now ⟨jobId, attemptId, host.deviceId, host.sha256 claimToken⟩ report w.redis
      some { rest with
        redis := res.2, replies := (q, .report (res.1.map fun _ => ())) :: w.replies }
    | .getJob jobId =>
      some { rest with replies := (q, .detail (deviceDetail nowMs jobId w.redis)) :: w.replies }

/-- The script of a claim the coordinator has read the job for. -/
def runClaim (w : World) (i now : Nat) : Option World :=
  match w.pending[i]? with
  | none => none
  | some c =>
    let res := claimJob now c.params w.redis
    some { w with
      pending := w.pending.eraseIdx i
      clock := now
      redis := res.2
      replies := (c.request, .claim (res.1.map fun _ => ())) :: w.replies }

/-! ### the daemon's steps -/

namespace World

def send (w : World) (body : Body) (stage : Await) : World :=
  { w with
    requests := ⟨w.nextCall, body⟩ :: w.requests
    nextCall := w.nextCall + 1
    pc := .await ⟨w.nextCall, body⟩ stage }

/-- The attempt is saved in a new phase, unless another one is there by now. -/
def savePhase (w : World) (attemptId : String) (ph : Phase) : World :=
  match w.dir.activeAttempt with
  | none => { w with pc := .loop }
  | some a =>
    if a.attemptId = attemptId then { w with dir := w.dir.setPhase a ph, pc := .loop }
    else { w with pc := .loop }

end World

/-- The phases a step without the coordinator can take an attempt to. -/
def localNext : Phase → List Phase
  | .claimed => [.prepareIntent]
  | .prepareIntent => [.prepareIntent, .prepared, .startIntent, .outcomeRecorded, .recoveryRequired]
  | .prepared => [.startIntent, .dispatchIntent, .recoveryRequired]
  | .dispatchIntent =>
    [.dispatchIntent, .startIntent, .dispatched, .outcomeRecorded, .recoveryRequired]
  | .dispatched => [.startIntent]
  | .started => [.waiting]
  | .waiting => [.waiting, .outcomeRecorded, .recoveryRequired]
  | .outcomeRecorded => [.recoveryRequired]
  | .legacyRunning => [.recoveryRequired]
  | .claimIntent | .startIntent | .finalizedLocal | .recoveryRequired => []

/-- The main loop takes a job it has seen queued: a claim intent is saved before any request. -/
def claimIntent (w : World) (jobId attemptId claimToken : String) : Option World :=
  match w.dir.activeAttempt, w.dir.outbox, w.redis.jobs jobId with
  | none, [], some job =>
    if (w.intents.any fun i => i.attemptId == attemptId) then none
    else
      let a : ActiveAttempt :=
        { jobId := jobId
          workspaceId := job.workspaceId
          targetId := job.targetId
          attemptId := attemptId
          claimToken := claimToken
          phase := .claimIntent
          terminalReportSha256 := none }
      some { w with dir := { w.dir with activeAttempt := some a }, intents := a.intent :: w.intents }
  | _, _, _ => none

def deliver (w : World) (o : OutboxRecord) : World :=
  w.send (.report o.jobId o.attemptId o.claimToken o.report) (.report o)

/-- `drive_active_attempt` up to its first request. -/
def driveActiveAttempt (host : Host) (w : World) : Option World :=
  match w.dir.activeAttempt with
  | none => none
  | some a =>
    match a.phase with
    | .claimIntent => some (w.send (.claim a.jobId a.attemptId a.claimToken) (.claim a))
    | .startIntent => some (w.send (.start a.jobId a.attemptId a.claimToken) (.start a))
    | .waiting => some (w.send (.getJob a.jobId) (.cancelPoll a))
    | .recoveryRequired => some (w.send (.getJob a.jobId) (.reconcile a))
    | .finalizedLocal =>
      match w.dir.outboxFile a.jobId a.attemptId with
      | some o =>
        if some (host.reportSha256 o.report) = a.terminalReportSha256 then some (deliver w o)
        else none
      | none =>
        match w.dir.historyFile a.jobId a.attemptId with
        | some h =>
          if h.targetId = a.targetId ∧ some h.terminalReportSha256 = a.terminalReportSha256 then
            some { w with pc := .work [.removeActive] }
          else none
        | none => none
    | _ => none

/-- The steps of `drive_active_attempt` that ask the adapter and not the coordinator. -/
def advance (w : World) (ph : Phase) : Option World :=
  match w.dir.activeAttempt with
  | none => none
  | some a => if ph ∈ localNext a.phase then some { w with dir := w.dir.setPhase a ph } else none

/-- A recorded outcome becomes a report in the outbox. -/
def recordReport (host : Host) (w : World) (report : ExecutionReport) : Option World :=
  match w.dir.activeAttempt with
  | none => none
  | some a =>
    if a.phase = .outcomeRecorded then
      let o : OutboxRecord := ⟨a.jobId, a.attemptId, a.claimToken, report⟩
      let others := w.dir.outbox.filter fun x => !(x.jobId == a.jobId && x.attemptId == a.attemptId)
      some { w with
        dir := { w.dir with outbox := o :: others }
        pc := .work [.finalize a.attemptId (host.reportSha256 report)] }
    else none

def cancelledHistory (host : Host) (jobId attemptId targetId : String) : HistoryRecord :=
  ⟨jobId, attemptId, targetId, host.operatorCancelDigest jobId attemptId⟩

/-- `finalize_local_operator_cancelled`, which looks at the attempt again first. -/
def finalizeLocalOperatorCancelled (host : Host) (w : World) (active : ActiveAttempt) : World :=
  match w.dir.activeAttempt with
  | none => { w with pc := .loop }
  | some a =>
    if a.attemptId = active.attemptId then
      { w with
        pc := .work [.writeHistory (cancelledHistory host a.jobId a.attemptId a.targetId),
          .removeActive] }
    else { w with pc := .loop }

def isCancelled (d : DeviceDetail) : Bool :=
  d.state == .terminal && d.executionStatus == some .cancelled

/-- The steps after a reply. A step that fails the daemon ends in `loop`, where it may stop; a
reply that passes on the wire but not the daemon's checks of it is not `valid`. -/
def receive (host : Host) (w : World) (valid : Bool) : Await → Answer → Option World
  | .claim active, .claim (.ok _) =>
    some (w.savePhase active.attemptId (if valid then .claimed else .recoveryRequired))
  | .claim active, .claim (.error e) =>
    match e with
    | .alreadyClaimed | .expired | .finished | .jobNotFound =>
      some { w with pc := .work [.removeActive] }
    | .idempotencyConflict _ => some (w.savePhase active.attemptId .recoveryRequired)
    | _ => some { w with pc := .loop }
  | .start active, .start (.ok _) =>
    some (w.savePhase active.attemptId (if valid then .started else .recoveryRequired))
  | .start active, .start (.error e) =>
    match e with
    | .lifecycle .jobNotActive | .lifecycle (.invalidAttemptPhase _) | .lifecycle .attemptMismatch
    | .lifecycle .attemptNotFound =>
      some (w.send (.getJob active.jobId) (.startRefused active))
    | .lifecycle _ | .jobNotFound => some (w.savePhase active.attemptId .recoveryRequired)
    | _ => some { w with pc := .loop }
  | .startRefused active, .detail (.ok d) =>
    if isCancelled d then some (finalizeLocalOperatorCancelled host w active)
    else some (w.savePhase active.attemptId .recoveryRequired)
  | .startRefused active, .detail (.error _) =>
    some (w.savePhase active.attemptId .recoveryRequired)
  | .cancelPoll active, .detail (.ok d) =>
    if isCancelled d then some (finalizeLocalOperatorCancelled host w active)
    else some { w with pc := .loop }
  | .cancelPoll _, .detail (.error _) => some { w with pc := .loop }
  | .report o, .report (.ok _) =>
    match w.dir.activeAttempt with
    | none => some { w with pc := .loop }
    | some a =>
      if a.jobId = o.jobId ∧ a.attemptId = o.attemptId ∧ a.phase = .finalizedLocal ∧
          a.terminalReportSha256 = some (host.reportSha256 o.report) then
        some { w with
          pc := .work [
            .writeHistory ⟨o.jobId, o.attemptId, a.targetId, host.reportSha256 o.report⟩,
            .removeOutbox o.jobId o.attemptId, .removeActive] }
      else some { w with pc := .loop }
  | .report o, .report (.error e) =>
    match e, w.dir.activeAttempt with
    | .reportConflict _, some a | .lifecycle .attemptMismatch, some a =>
      if a.jobId = o.jobId ∧ a.attemptId = o.attemptId then
        some (w.send (.getJob o.jobId) (.reportRefused o a.targetId))
      else some { w with pc := .loop }
    | _, _ => some { w with pc := .loop }
  | .reportRefused o targetId, .detail (.ok d) =>
    if isCancelled d then
      some { w with
        pc := .work [.writeHistory (cancelledHistory host o.jobId o.attemptId targetId),
          .removeOutbox o.jobId o.attemptId, .removeActive] }
    else some { w with pc := .loop }
  | .reportRefused _ _, .detail (.error _) => some { w with pc := .loop }
  | .reconcile active, .detail (.ok d) =>
    if isCancelled d && d.attemptId == some active.attemptId then
      some (finalizeLocalOperatorCancelled host w active)
    else some (w.send (.getJob active.jobId) (.recover active))
  | .reconcile active, .detail (.error _) =>
    some (w.send (.getJob active.jobId) (.recover active))
  | .recover active, .detail (.ok d) =>
    if d.state ≠ .terminal ∧ d.attemptId = some active.attemptId then
      some (w.savePhase active.attemptId .outcomeRecorded)
    else some { w with pc := .loop }
  | .recover _, .detail (.error _) => some { w with pc := .loop }
  | _, _ => none

/-- One durable write. -/
def fileStep (dir : StateDir) : FileStep → StateDir
  | .writeHistory h => { dir with history := h :: dir.history }
  | .removeOutbox jobId attemptId =>
    { dir with outbox := dir.outbox.filter fun x => !(x.jobId == jobId && x.attemptId == attemptId) }
  | .removeActive => { dir with activeAttempt := none }
  | .finalize attemptId digest =>
    match dir.activeAttempt with
    | none => dir
    | some a =>
      if a.attemptId = attemptId then
        { dir with
          activeAttempt := some { a with
            phase := .finalizedLocal, terminalReportSha256 := some digest } }
      else dir

inductive Event where
  /-- A store call on somebody else's behalf. -/
  | server (now : Nat) (c : Call)
  | setEligible (targetId : String) (binding : Option EligibleBinding)
  | duplicate (i : Nat)
  | lose (i : Nat)
  | loseReply (i : Nat)
  | serve (i now nowMs : Nat)
  | runClaim (i now : Nat)
  | start
  | crash
  | claimIntent (jobId attemptId claimToken : String)
  | drive
  | flush (i : Nat)
  | advance (ph : Phase)
  | record (report : ExecutionReport)
  | receive (i : Nat) (valid : Bool)
  | timeout
  | work

/-- A claim in this device's name. -/
def Host.isOwn (host : Host) : Call → Bool
  | .claim p => p.deviceId == host.deviceId
  | _ => false

/-- The Redis clock does not go back. -/
def next (host : Host) (w : World) : Event → Option World
  | .server now c =>
    if now < w.clock ∨ host.isOwn c then none
    else some { w with clock := now, redis := exec now w.redis c }
  | .setEligible targetId binding =>
    some { w with eligible := Function.update w.eligible targetId binding }
  | .duplicate i =>
    match w.requests[i]? with
    | none => none
    | some q => some { w with requests := q :: w.requests }
  | .lose i => some { w with requests := w.requests.eraseIdx i }
  | .loseReply i => some { w with replies := w.replies.eraseIdx i }
  | .serve i now nowMs => if now < w.clock then none else serve host w i now nowMs
  | .runClaim i now => if now < w.clock then none else runClaim w i now
  | .start => if w.pc = .off then some { w with pc := .loop } else none
  | .crash => some { w with pc := .off }
  | .claimIntent jobId attemptId claimToken =>
    if w.pc = .loop then claimIntent w jobId attemptId claimToken else none
  | .drive => if w.pc = .loop then driveActiveAttempt host w else none
  | .flush i => if w.pc = .loop then (w.dir.outbox[i]?).map (deliver w) else none
  | .advance ph => if w.pc = .loop then advance w ph else none
  | .record report => if w.pc = .loop then recordReport host w report else none
  | .receive i valid =>
    match w.pc, w.replies[i]? with
    | .await q stage, some (q', answer) =>
      if q' = q then receive host { w with replies := w.replies.eraseIdx i } valid stage answer
      else none
    | _, _ => none
  | .timeout =>
    match w.pc with
    | .await _ (.startRefused active) => some (w.savePhase active.attemptId .recoveryRequired)
    | .await _ (.reconcile active) => some (w.send (.getJob active.jobId) (.recover active))
    | .await _ _ => some { w with pc := .loop }
    | _ => none
  | .work =>
    match w.pc with
    | .work [] => some { w with pc := .loop }
    | .work (s :: steps) => some { w with dir := fileStep w.dir s, pc := .work steps }
    | _ => none

def system (host : Host) : LTS World Event := .ofOption (· = World.init) (next host)

end Ceo.Connector
