import Ceo.Lib.Program
import Mathlib.Logic.Function.Basic

/-!
# The workspace transaction

`withAtomicWorkspaceTransaction`, `withReadyWorkspace` and the recovery of a
pending commit (`workspace.ts`), command by command. A request id has at most
one record under `completed/`; `pending.json` is there while a commit waits for
its push. Everything here runs under the workspace lock.
-/

namespace Ceo.Workspace

open Ceo.Lib Function

/-! ### commits -/

/-- Who made a commit; the number is what tells it from the others of its author. -/
inductive Author where
  | ours (n : Nat)
  | theirs (n : Nat)
  deriving DecidableEq, Repr

def Author.isOurs : Author → Bool
  | .ours _ => true
  | .theirs _ => false

/-- A commit is its own change and what it is built on. -/
inductive Commit where
  | root (author : Author)
  | child (author : Author) (parent : Commit)
  | merge (author : Author) (parent merged : Commit)
  deriving DecidableEq, Repr

namespace Commit

/-- The commit and all before it. -/
def history : Commit → List Commit
  | c@(.root _) => [c]
  | c@(.child _ parent) => c :: parent.history
  | c@(.merge _ parent merged) => c :: parent.history ++ merged.history

def author : Commit → Author
  | .root a | .child a _ | .merge a _ _ => a

end Commit

/-! ### the journal -/

inductive Outcome where
  | committed | noop | staleRevision
  deriving DecidableEq, Repr

/-- What a managed job result puts into `operation_result`: its payload digest. -/
abbrev OperationResult := Option String

structure PendingTransaction where
  requestId : String
  baseCommit : Commit
  commit : Commit
  operationResult : OperationResult
  deriving DecidableEq, Repr

structure CompletedTransaction where
  requestId : String
  baseCommit : Commit
  commit : Commit
  pushed : Bool
  outcome : Outcome
  /-- `reason` and `remote_head` of an archived transaction. -/
  archived : Option (String × Commit)
  operationResult : OperationResult
  deriving DecidableEq, Repr

def remoteHistoryRewritten : String := "REMOTE_HISTORY_REWRITTEN"

namespace CompletedTransaction

def isStale (c : CompletedTransaction) : Bool :=
  c.outcome == .staleRevision ||
    (!c.pushed && c.archived.any fun a => a.1 == remoteHistoryRewritten)

end CompletedTransaction

namespace PendingTransaction

def finalized (p : PendingTransaction) : CompletedTransaction :=
  { requestId := p.requestId
    baseCommit := p.baseCommit
    commit := p.commit
    pushed := true
    outcome := .committed
    archived := none
    operationResult := p.operationResult }

def superseded (p : PendingTransaction) (remoteHead : Commit) : CompletedTransaction :=
  { requestId := p.requestId
    baseCommit := p.baseCommit
    commit := p.commit
    pushed := false
    outcome := .staleRevision
    archived := some (remoteHistoryRewritten, remoteHead)
    operationResult := p.operationResult }

end PendingTransaction

/-- What is thrown: an error of the workspace, an error of the mutator or of the checks of its diff,
or the error of a command or the file system. -/
inductive Failure where
  | ceo (code message : String)
  | refused (code message : String)
  | raw
  deriving DecidableEq, Repr

namespace Failure

/-- A `STALE_REVISION` of the workspace itself. -/
def isStale : Failure → Bool
  | .ceo code _ => code == "STALE_REVISION"
  | .refused _ _ | .raw => false

def workspaceDirty : Failure :=
  .ceo "WORKSPACE_DIRTY" "Main working copy contains uncommitted changes."

def pushPending (message : String) : Failure := .ceo "PUSH_PENDING" message

def noChanges : Failure := .ceo "VALIDATION_FAILED" "Change set produces no file changes."

def superseded (requestId : String) : Failure :=
  .ceo "STALE_REVISION" ("Transaction " ++ requestId ++
    " was superseded by a remote history rewrite; retry required.")

def changedSinceRead (branch : String) : Failure :=
  .ceo "STALE_REVISION" ("origin/" ++ branch ++ " changed since the files were read.")

def movedDuring (branch : String) : Failure :=
  .ceo "STALE_REVISION" ("origin/" ++ branch ++
    " moved during the transaction; the local commit was not pushed.")

end Failure

/-! ### the commands -/

inductive Call where
  | readCompleted (requestId : String)
  | writeCompleted (completed : CompletedTransaction)
  | readPending
  | writePending (pending : PendingTransaction)
  | removePending
  | fetch
  /-- `status --porcelain`: whether the main copy is dirty. -/
  | status
  | resolveHead
  /-- `origin/<branch>` as it was last fetched. -/
  | resolveOrigin
  /-- `checkout -B` or `reset --hard`. -/
  | moveTo (commit : Commit)
  | isAncestor (commit remote : Commit)
  | push (commit : Commit)
  /-- All that happens in the worktree, from `worktree add` to `commit`: the mutator and the checks
  of the diff. Answers with nothing when no file changed. -/
  | prepare (requestId : String) (base : Commit)
  | discardWorktree
  deriving DecidableEq, Repr

@[reducible] def Call.Value : Call → Type
  | .readCompleted _ => Option CompletedTransaction
  | .readPending => Option PendingTransaction
  | .status => Bool
  | .resolveHead | .resolveOrigin => Commit
  | .prepare _ _ => Option Commit
  | .writeCompleted _ | .writePending _ | .removePending | .fetch | .moveTo _ | .isAncestor _ _
  | .push _ | .discardWorktree => Unit

abbrev Call.Answer (e : Call) : Type := Except Failure e.Value

abbrev Prog := ExceptT Failure (Program Call Call.Answer)

def ask (e : Call) : Prog e.Value := ExceptT.mk (Program.perform e)

/-- Whether the steps of a `try` block all went through. -/
def succeeds (p : Prog Unit) : Prog Bool :=
  ExceptT.mk (p.run >>= fun r => .done (.ok r.isOk))

/-! ### the methods -/

/-- The mutator is what `prepare` answers for; `operationResult` is what the producer gives. -/
structure TransactionInput where
  requestId : String
  baseCommit : Commit
  allowEmpty : Bool
  operationResult : OperationResult

def TransactionInput.pending (input : TransactionInput) (commit : Commit) : PendingTransaction :=
  { requestId := input.requestId
    baseCommit := input.baseCommit
    commit := commit
    operationResult := input.operationResult }

namespace CeoWorkspace

variable (branch : String)

def syncCleanWorkspace : Prog Unit := do
  let dirty : Bool ← ask .status
  if dirty then throw .workspaceDirty
  ask .fetch
  let localHead : Commit ← ask .resolveHead
  let remote : Commit ← ask .resolveOrigin
  if localHead = remote then return ()
  else ask (.moveTo remote)

/-- The remote has the commit: follow it and write the transaction down. -/
def settleTo (pending : PendingTransaction) (remote : Commit) : Prog Unit := do
  let dirty : Bool ← ask .status
  if dirty then throw .workspaceDirty
  ask (.moveTo remote)
  ask (.writeCompleted pending.finalized)
  ask .removePending
  ask .discardWorktree

def finalizePending (pending : PendingTransaction) (remoteOverride : Option Commit) : Prog Unit := do
  ask .fetch
  match remoteOverride with
  | some remote => settleTo pending remote
  | none =>
    let remote : Commit ← ask .resolveOrigin
    settleTo pending remote

def archiveStalePending (pending : PendingTransaction) (remoteHead : Commit) : Prog Unit := do
  ask (.writeCompleted (pending.superseded remoteHead))
  ask .removePending
  ask .discardWorktree

/-- The commit is not known to be on the remote: push it when the remote is at its base, and give it
up when the remote is elsewhere. -/
def reclassifyPending (pending : PendingTransaction) (remote : Commit) : Prog Unit := do
  if remote = pending.baseCommit then
    let pushed ← succeeds do
      ask (.push pending.commit)
      finalizePending pending none
    if pushed then return ()
    else throw (.pushPending "Pending commit still cannot be pushed.")
  else
    archiveStalePending pending remote
    syncCleanWorkspace

/-- There is a pending commit: finalize it where the remote has it. -/
def classifyPending (pending : PendingTransaction) : Prog Unit := do
  let fetched ← succeeds (ask .fetch)
  if !fetched then throw (.pushPending "Cannot reach GitHub to recover the pending commit.")
  let remote : Commit ← ask .resolveOrigin
  if remote = pending.commit then finalizePending pending none
  else
    let finalized ← succeeds do
      ask (.isAncestor pending.commit remote)
      finalizePending pending (some remote)
    if finalized then return ()
    else reclassifyPending pending remote

def recoverPending : Prog Unit := do
  let found : Option PendingTransaction ← ask .readPending
  match found with
  | none => return ()
  | some pending => classifyPending pending

/-- The remote is where the commit was built. -/
def publish (pending : PendingTransaction) : Prog CompletedTransaction := do
  let pushed ← succeeds (ask (.push pending.commit))
  if !pushed then
    throw (.pushPending "Commit created locally, but push could not be verified.")
  finalizePending pending none
  return pending.finalized

/-- What is left to do once the commit is made and written down. -/
def pushCommitted (pending : PendingTransaction) : Prog CompletedTransaction := do
  ask .fetch
  let latest : Commit ← ask .resolveOrigin
  if latest ≠ pending.baseCommit then
    archiveStalePending pending latest
    syncCleanWorkspace
    throw (.movedDuring branch)
  else publish pending

/-- No file has changed. -/
def recordNoop (input : TransactionInput) : Prog CompletedTransaction := do
  ask .discardWorktree
  if !input.allowEmpty then throw .noChanges
  let completed : CompletedTransaction :=
    { requestId := input.requestId
      baseCommit := input.baseCommit
      commit := input.baseCommit
      pushed := false
      outcome := .noop
      archived := none
      operationResult := input.operationResult }
  ask (.writeCompleted completed)
  return completed

def runTransaction (input : TransactionInput) : Prog CompletedTransaction := do
  let prepared : Option Commit ← ask (.prepare input.requestId input.baseCommit)
  match prepared with
  | none => recordNoop input
  | some commit =>
    ask (.writePending (input.pending commit))
    pushCommitted branch (input.pending commit)

def withAtomicWorkspaceTransaction (input : TransactionInput) : Prog CompletedTransaction := do
  let found : Option CompletedTransaction ← ask (.readCompleted input.requestId)
  match found with
  | some completed =>
    if completed.isStale then throw (.superseded input.requestId) else return completed
  | none =>
    recoverPending
    let pending : Option PendingTransaction ← ask .readPending
    if pending.isSome then
      throw (.pushPending "A previous commit is awaiting push verification.")
    syncCleanWorkspace
    let remote : Commit ← ask .resolveOrigin
    if remote ≠ input.baseCommit then throw (.changedSinceRead branch)
    else runTransaction branch input

/-- `withReadyWorkspace(async (base) => base)` -/
def readyBase : Prog Commit := do
  recoverPending
  syncCleanWorkspace
  ask .resolveHead

end CeoWorkspace

/-! ### the disk and the remote -/

structure Disk where
  /-- The branch of the remote. -/
  remote : Commit
  /-- The branch as it was last fetched. -/
  origin : Commit
  /-- `HEAD` of the main copy. -/
  head : Commit
  pending : Option PendingTransaction
  completed : String → Option CompletedTransaction
  /-- The commits made here so far. -/
  made : Nat
  /-- What has been in the history of the remote at some time. -/
  published : List Commit

/-- How a command goes. -/
inductive Fate where
  | ok
  /-- It fails and has done nothing. -/
  | fail
  /-- It has done its work and fails. -/
  | lost
  | dirty (isDirty : Bool)
  /-- The mutator throws, or changes no file, or there is a commit. -/
  | refused (code message : String)
  | unchanged
  deriving DecidableEq, Repr

namespace Disk

def moveRemote (d : Disk) (c : Commit) : Disk :=
  { d with remote := c, published := c.history ++ d.published }

/-- The work of a command, for those that answer nothing. -/
def work (d : Disk) : Call → Disk
  | .writeCompleted c => { d with completed := update d.completed c.requestId (some c) }
  | .writePending p => { d with pending := some p }
  | .removePending => { d with pending := none }
  | .fetch => { d with origin := d.remote }
  | .moveTo c => { d with head := c }
  | .push c => if d.remote ∈ c.history then { d.moveRemote c with origin := c } else d
  | .prepare _ _ => { d with made := d.made + 1 }
  | .readCompleted _ | .readPending | .status | .resolveHead | .resolveOrigin | .isAncestor _ _
  | .discardWorktree => d

end Disk

/-- The answer of a command that goes well. -/
def answer (d : Disk) : (e : Call) → Fate → Option (Call.Answer e)
  | .readCompleted id, .ok => some (.ok (d.completed id))
  | .readPending, .ok => some (.ok d.pending)
  | .status, .dirty isDirty => some (.ok isDirty)
  | .resolveHead, .ok => some (.ok d.head)
  | .resolveOrigin, .ok => some (.ok d.origin)
  | .isAncestor c remote, .ok => some (if c ∈ remote.history then .ok () else .error .raw)
  | .push c, .ok => some (if d.remote ∈ c.history then .ok () else .error .raw)
  | .prepare _ base, .ok => some (.ok (some (.child (.ours d.made) base)))
  | .prepare _ _, .unchanged => some (.ok none)
  | .prepare _ _, .refused code message => some (.error (.refused code message))
  | .writeCompleted _, .ok | .writePending _, .ok | .removePending, .ok | .fetch, .ok | .moveTo _, .ok
  | .discardWorktree, .ok => some (.ok ())
  | _, .fail | _, .lost => some (.error .raw)
  | _, _ => none

/-- Only a command that goes well or is lost has done its work. -/
def Fate.works : Fate → Bool
  | .ok | .lost => true
  | .fail | .dirty _ | .refused _ _ | .unchanged => false

def serveCall (d : Disk) (e : Call) (x : Fate) : Option (Call.Answer e × Disk) :=
  (answer d e x).map fun a => (a, if x.works then d.work e else d)

/-- Somebody else moves the branch. Commits made here can only be in what they push when the
remote has had them. -/
def thirdPartyPush (d : Disk) (c : Commit) : Option Disk :=
  if ∀ x ∈ c.history, x.author.isOurs = true → x ∈ d.published then some (d.moveRemote c)
  else none

/-- A process on this disk. What it does inside a command when it stops is done. -/
def surroundings : Surroundings Disk Call Call.Answer Fate Commit where
  serve := serveCall
  lose d e := d.work e
  stop d := d
  surround := thirdPartyPush

end Ceo.Workspace
