import Ceo.Lib.Server
import Ceo.Jobs.Fence
import Ceo.Jobs.Readers

/-!
# Target queues and those who prune them

`getPendingJobs` (`jobs/v2-service.ts`) and `verifyTargetQuiescence`
(`jobs/target-delete.ts`) command by command: each reads records and removes
from a queue what it has found dead, while the scripts of others run in
between. Server and Redis share one clock, which does not go back.
-/

namespace Ceo.Jobs

open Ceo.Lib Function

def targetDeleteStreamScanBatch : Nat := 128

/-- `XRANGE` after an entry. -/
def scanJobStream (r : Redis) (afterExclusive : Option StreamId) (count : Nat) :
    List (StreamId × JobStreamEntryV2) :=
  let cursor := afterExclusive.getD ⟨0, 0⟩
  (r.stream.filter fun e => cursor.ms < e.1.ms || (cursor.ms == e.1.ms && cursor.seq < e.1.seq)).take
    count

/-- `ZREM` of several members. -/
def pruneTargetQueue (r : Redis) (targetId : String) (jobIds : List String) : Redis :=
  jobIds.foldl (fun r id => r.zremTargetQueue targetId id) r

inductive QueueAsk where
  | nowMs
  | getQueuedJobIdsForTarget (targetId : String) (limit : Nat)
  | getJob (jobId : String)
  | getAttempt (attemptId : String)
  | scanJobStream (afterExclusive : Option StreamId) (count : Nat)
  | touchTargetDeleteFence (targetId token : String)
  /-- The caller goes on if the command fails. -/
  | pruneTargetQueue (targetId : String) (jobIds : List String)

def QueueAsk.Answer : QueueAsk → Type
  | .nowMs => Nat
  | .getQueuedJobIdsForTarget _ _ => List Candidate
  | .getJob _ => Except V2Error (Option JobRecordV2)
  | .getAttempt _ => Except V2Error (Option AttemptRecordV1)
  | .scanJobStream _ _ => List (StreamId × JobStreamEntryV2)
  | .touchTargetDeleteFence _ _ => Bool
  | .pruneTargetQueue _ _ => Unit

structure NonTerminalJobEvidence where
  preparing : List String
  queued : List String
  claimed : List String
  running : List String

structure Quiescence where
  quiescent : Bool
  terminalJobs : Nat
  evidence : NonTerminalJobEvidence

inductive QueueReply where
  | pendingJobs (jobs : List PendingJobSummary)
  | quiescence (q : Quiescence)
  /-- The scan has not come to its end in the batches it was given. -/
  | scanning

abbrev QueueMethod := Program QueueAsk QueueAsk.Answer (Except V2Error QueueReply)

/-! ### getPendingJobs -/

namespace JobCoordinatorV2

/-- The loop over the sorted candidates: a dead one is pruned, the others are shown. -/
def pendingJobs (now limit : Nat) : List Candidate → List PendingJobSummary → QueueMethod
  | [], results => .done (.ok (.pendingJobs results))
  | c :: cs, results =>
    let prune : QueueMethod :=
      .call (.pruneTargetQueue c.targetId [c.jobId]) fun _ => pendingJobs now limit cs results
    if limit ≤ results.length then .done (.ok (.pendingJobs results))
    else
      .call (.getJob c.jobId) fun
      | .error e => .done (.error e)
      | .ok none => prune
      | .ok (some job) =>
        if job.status ≠ .queued then prune
        else if 0 < job.claimDeadlineMs ∧ job.claimDeadlineMs ≤ now then prune
        else if job.targetId ≠ c.targetId then prune
        else
          match toIso job.createdAtMs,
            toIsoOpt (if 0 < job.claimDeadlineMs then some job.claimDeadlineMs else none) with
          | .ok createdAt, .ok expiresAt =>
            pendingJobs now limit cs (results ++
              [⟨job.jobId, job.workspaceId, job.targetId, job.resourceId, createdAt, expiresAt⟩])
          | .error e, _ | _, .error e => .done (.error e)

def collectCandidates (limit : Nat) (next : List Candidate → QueueMethod) :
    List String → List Candidate → QueueMethod
  | [], candidates => next candidates
  | t :: ts, candidates =>
    .call (.getQueuedJobIdsForTarget t limit) fun (rows : List Candidate) =>
      collectCandidates limit next ts (candidates ++ rows)

def getPendingJobs (eligibleTargetIds : List String) (limit : Int) : QueueMethod :=
  let boundedLimit := (min (max 1 limit) 50).toNat
  if eligibleTargetIds = [] then .done (.ok (.pendingJobs []))
  else
    collectCandidates boundedLimit (fun candidates =>
      .call .nowMs fun now =>
        pendingJobs now boundedLimit
          (candidates.mergeSort fun a b => a.createdAtMs ≤ b.createdAtMs) [])
      eligibleTargetIds []

end JobCoordinatorV2

/-! ### verifyTargetQuiescence -/

namespace TargetDelete

/-- What the scan has found so far. -/
structure Scan where
  evidence : NonTerminalJobEvidence
  terminalJobs : Nat
  expiredQueuedIds : List String

def Scan.preparing (s : Scan) (id : String) : Scan :=
  { s with evidence := { s.evidence with preparing := s.evidence.preparing ++ [id] } }

def Scan.queued (s : Scan) (id : String) : Scan :=
  { s with evidence := { s.evidence with queued := s.evidence.queued ++ [id] } }

def Scan.claimed (s : Scan) (id : String) : Scan :=
  { s with evidence := { s.evidence with claimed := s.evidence.claimed ++ [id] } }

def Scan.running (s : Scan) (id : String) : Scan :=
  { s with evidence := { s.evidence with running := s.evidence.running ++ [id] } }

def Scan.expired (s : Scan) (id : String) : Scan :=
  { s with expiredQueuedIds := s.expiredQueuedIds ++ [id] }

def Scan.terminal (s : Scan) : Scan := { s with terminalJobs := s.terminalJobs + 1 }

/-- One job of the target, by its status. -/
def scanJob (nowMs : Nat) (job : JobRecordV2) (s : Scan) (next : Scan → QueueMethod) : QueueMethod :=
  match job.status with
  | .preparing => next (s.preparing job.jobId)
  | .queued =>
    if 0 < job.claimDeadlineMs ∧ job.claimDeadlineMs ≤ nowMs then next (s.expired job.jobId)
    else next (s.queued job.jobId)
  | .active =>
    match job.latestAttemptId with
    | none => next (s.claimed job.jobId)
    | some attemptId =>
      .call (.getAttempt attemptId) fun
      | .error e => .done (.error e)
      | .ok none => next (s.claimed job.jobId)
      | .ok (some attempt) =>
        if attempt.phase = .running then next (s.running job.jobId) else next (s.claimed job.jobId)
  | .terminal => next s.terminal

def scanBatch (nowMs : Nat) (targetId : String) (next : Scan → QueueMethod) :
    List (StreamId × JobStreamEntryV2) → Scan → QueueMethod
  | [], s => next s
  | (_, entry) :: batch, s =>
    if entry.targetId ≠ targetId ∨ entry.jobId = "" then scanBatch nowMs targetId next batch s
    else
      .call (.getJob entry.jobId) fun
      | .error e => .done (.error e)
      | .ok none => scanBatch nowMs targetId next batch s
      | .ok (some job) => scanJob nowMs job s (scanBatch nowMs targetId next batch)

def quiescence (s : Scan) : QueueMethod :=
  let e := s.evidence
  .done (.ok (.quiescence ⟨e.preparing.length + e.queued.length + e.claimed.length +
    e.running.length == 0, s.terminalJobs, e⟩))

/-- The end of the scan: the expired jobs leave the queue. -/
def pruneExpired (targetId : String) (s : Scan) : QueueMethod :=
  if s.expiredQueuedIds = [] then quiescence s
  else .call (.pruneTargetQueue targetId s.expiredQueuedIds) fun _ => quiescence s

/-- The scan, batch by batch, as far as `batches` of them. -/
def scanLoop (nowMs : Nat) (targetId fenceToken : String) :
    Nat → Option StreamId → Scan → QueueMethod
  | 0, _, _ => .done (.ok .scanning)
  | batches + 1, cursor, s =>
    .call (.scanJobStream cursor targetDeleteStreamScanBatch) fun
      (batch : List (StreamId × JobStreamEntryV2)) =>
      match batch.getLast? with
      | none => pruneExpired targetId s
      | some last =>
        scanBatch nowMs targetId (fun s =>
          .call (.touchTargetDeleteFence targetId fenceToken) fun _ =>
            if batch.length < targetDeleteStreamScanBatch then pruneExpired targetId s
            else scanLoop nowMs targetId fenceToken batches (some last.1) s) batch s

def verifyTargetQuiescence (targetId fenceToken : String) (batches : Nat) : QueueMethod :=
  .call .nowMs fun nowMs =>
    scanLoop nowMs targetId fenceToken batches none ⟨⟨[], [], [], []⟩, 0, []⟩

end TargetDelete

/-! ### the server -/

inductive QueueRequest where
  | getPendingJobs (eligibleTargetIds : List String) (limit : Int)
  | verifyTargetQuiescence (targetId fenceToken : String) (batches : Nat)

def handleQueue : QueueRequest → QueueMethod
  | .getPendingJobs targets limit => JobCoordinatorV2.getPendingJobs targets limit
  | .verifyTargetQuiescence targetId token batches =>
    TargetDelete.verifyTargetQuiescence targetId token batches

/-- The time of a command, and whether it fails where its caller does not mind. -/
structure QueueChoice where
  now : Nat
  fails : Bool

def answerQueue (r : Redis) (x : QueueChoice) : (e : QueueAsk) → e.Answer × Redis
  | .nowMs => (x.now, r)
  | .getQueuedJobIdsForTarget targetId limit => (getQueuedJobIdsForTarget r targetId limit, r)
  | .getJob jobId => (getJob r jobId, r)
  | .getAttempt attemptId => (getAttempt r attemptId, r)
  | .scanJobStream after count => (scanJobStream r after count, r)
  | .touchTargetDeleteFence targetId token => touchTargetDeleteFence x.now targetId token r
  | .pruneTargetQueue targetId jobIds =>
    ((), if x.fails then r else pruneTargetQueue r targetId jobIds)

def serveQueue (w : World) (e : QueueAsk) (x : QueueChoice) : Option (e.Answer × World) :=
  if w.clock ≤ x.now then
    let a := answerQueue w.redis x e
    some (a.1, ⟨a.2, x.now⟩)
  else none

def queues : Server World QueueAsk QueueAsk.Answer QueueChoice (Nat × Call) QueueRequest
    (Except V2Error QueueReply) where
  serve := serveQueue
  lose w _ := w
  stop w := w
  surround w a := if w.clock ≤ a.1 then some ⟨exec a.1 w.redis a.2, a.1⟩ else none
  Init w := w.redis = Redis.empty
  handle := handleQueue

def Call.isPrune : Call → Bool
  | .pruneTargetQueue _ _ => true
  | _ => false

/-- The two methods alone prune. -/
def amongScripts : Policy World QueueAsk QueueChoice (Nat × Call) :=
  ⟨fun _ _ _ => True, fun _ _ => True, fun _ => True, fun _ a => a.2.isPrune = false⟩

instance (w : World) (e : QueueAsk) (x : QueueChoice) : Decidable (amongScripts.reply w e x) :=
  .isTrue trivial

instance (w : World) (a : Nat × Call) : Decidable (amongScripts.surround w a) :=
  inferInstanceAs (Decidable (a.2.isPrune = false))

end Ceo.Jobs
