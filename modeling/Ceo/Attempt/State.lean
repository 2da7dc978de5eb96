import Ceo.Connector.Daemon
import Ceo.Lib.Guard

/-!
# The active attempt

`active-attempt.json` as `scheduler.rs` has it: the attempt with its executor
state, the checks it passes whenever it is loaded or saved, and the promotion
of the older formats. A check is a guard with the text of the error.
-/

namespace Ceo.Attempt

open Ceo.Lib Ceo.Jobs
open Ceo.Connector (Phase)

def activeAttemptSchemaVersion : Nat := 7

structure AttemptExecutorState where
  executorType : String
  orcaVersion : Option String
  worktreeId : Option String
  terminalId : Option String
  agentId : Option String
  agentReadyAtMs : Option Int
  dispatchSendCount : Nat
  dispatchStartedAtMs : Option Int
  executionDeadlineMs : Option Int
  dispatchRequestId : Option String
  dispatchAcceptedAtMs : Option Int
  dispatchTurnStarted : Bool
  dispatchBaselineStateStartedAt : Option Int
  turnStartedObserved : Bool
  structuredLifecycleObserved : Bool
  lastDispatchOutcome : Option String
  runtimeCompletionKind : Option String
  runtimeCompletedAtMs : Option Int
  runtimeError : Option ExecutionReportError
  deriving DecidableEq, Repr

def AttemptExecutorState.newOrca : AttemptExecutorState where
  executorType := "orca"
  orcaVersion := none
  worktreeId := none
  terminalId := none
  agentId := none
  agentReadyAtMs := none
  dispatchSendCount := 0
  dispatchStartedAtMs := none
  executionDeadlineMs := none
  dispatchRequestId := none
  dispatchAcceptedAtMs := none
  dispatchTurnStarted := false
  dispatchBaselineStateStartedAt := none
  turnStartedObserved := false
  structuredLifecycleObserved := false
  lastDispatchOutcome := none
  runtimeCompletionKind := none
  runtimeCompletedAtMs := none
  runtimeError := none

structure ActiveAttempt where
  schemaVersion : Nat
  serverOrigin : String
  deviceId : String
  jobId : String
  workspaceId : String
  targetId : String
  attemptId : String
  claimToken : String
  phase : Phase
  resourceId : Option String
  prompt : Option String
  acceptance : Option String
  executionTimeoutSeconds : Option Nat
  resultTarget : Option String
  payloadSha256 : Option String
  claimedAtMs : Option Int
  terminalReportSha256 : Option String
  frozenAgentId : Option String
  executor : Option AttemptExecutorState
  deriving DecidableEq, Repr

/-- `CanonicalPayload`, what the payload digest is taken of. -/
structure CanonicalPayload where
  jobId : String
  workspaceId : String
  targetId : String
  resourceId : Option String
  prompt : String
  acceptance : String
  executionTimeoutSeconds : Nat
  resultTarget : String
  deriving DecidableEq, Repr

/-! ### strings -/

/-- `char::is_whitespace` -/
def isRustSpace (c : Char) : Bool :=
  let n := c.toNat
  (9 ≤ n && n ≤ 13) || n == 0x20 || n == 0x85 || n == 0xA0 || n == 0x1680
    || (0x2000 ≤ n && n ≤ 0x200A) || n == 0x2028 || n == 0x2029 || n == 0x202F || n == 0x205F
    || n == 0x3000

def trim (s : String) : String :=
  String.ofList ((s.toList.dropWhile isRustSpace).reverse.dropWhile isRustSpace).reverse

def eqIgnoreAsciiCase (s t : String) : Bool := s.toList.map Char.toLower == t.toList.map Char.toLower

def isSha256Hex (s : String) : Bool := Pattern.test (Pattern.rep 64 Pattern.hex) s

def isAsciiAlphanumeric (c : Char) : Bool := c.isAlphanum

/-- What the standard library and the crates give: SHA-256 as 64 lowercase hex digits, the JSON
of what is hashed, and the parsers of URLs, UUIDs and RFC 3339 times. -/
structure Host where
  sha256 : String → String
  sha256_hex : ∀ s, isSha256Hex (sha256 s) = true
  payloadJson : CanonicalPayload → String
  normalizeServerOrigin : String → Except String String
  parseUuid : String → Bool
  parseTimestampStrict : String → Except String Int

def Host.computePayloadSha256 (host : Host) (p : CanonicalPayload) : String :=
  host.sha256 (host.payloadJson p)

/-! ### the checks -/

namespace ActiveAttempt

def hasPositiveDispatch (a : ActiveAttempt) : Bool :=
  match a.executor with
  | none => false
  | some e => e.dispatchRequestId.isSome && e.dispatchTurnStarted

/-- The payload the digest of a claimed attempt is checked against. -/
def payload (a : ActiveAttempt) : CanonicalPayload where
  jobId := a.jobId
  workspaceId := a.workspaceId
  targetId := a.targetId
  resourceId := a.resourceId
  prompt := a.prompt.getD ""
  acceptance := a.acceptance.getD ""
  executionTimeoutSeconds := a.executionTimeoutSeconds.getD 0
  resultTarget := a.resultTarget.getD ""

def corrupt (message : String) : String :=
  "Corrupt active attempt state: " ++ message ++ " (LOCAL_STATE_INVALID)"

def isValidAttemptId (host : Host) (id : String) : Bool :=
  if id.startsWith "att-" || id.startsWith "att_" then host.parseUuid (id.drop 4).toString else false

def isDefaultAgentPolicy (agentId : String) : Bool :=
  eqIgnoreAsciiCase (trim agentId) "default" || eqIgnoreAsciiCase (trim agentId) "auto"

def frozenAgentGuards (frozen : String) : List Guard :=
  let trimmed := trim frozen
  [⟨!trimmed.isEmpty, corrupt "frozen_agent_id cannot be empty"⟩,
   ⟨!isDefaultAgentPolicy trimmed,
    corrupt ("frozen_agent_id cannot be policy name '" ++ trimmed ++ "'")⟩,
   ⟨trimmed.utf8ByteSize ≤ 80, corrupt "frozen_agent_id exceeds maximum length of 80 bytes"⟩,
   ⟨!trimmed.toList.contains '\x00', corrupt "frozen_agent_id cannot contain NUL byte"⟩,
   ⟨trimmed.toList.all fun c => isAsciiAlphanumeric c || c == '-' || c == '_' || c == '.',
    corrupt "frozen_agent_id contains invalid characters (allowed: alphanumeric, -, _, .)"⟩]

/-- The checks that do not depend on the phase. -/
def identityGuards (host : Host) (a : ActiveAttempt) : List Guard :=
  [⟨a.schemaVersion == activeAttemptSchemaVersion,
    "Unsupported schema version: " ++ toString a.schemaVersion⟩,
   ⟨isValidAttemptId host a.attemptId,
    corrupt ("invalid attempt_id format: '" ++ a.attemptId ++
      "' (must be att-<uuid> or att_<uuid>)")⟩,
   ⟨isSha256Hex a.claimToken, corrupt "claim_token must be 64 lowercase hex characters"⟩] ++
  (match host.normalizeServerOrigin a.serverOrigin with
   | .error e => [⟨false, corrupt ("invalid server_origin: " ++ e)⟩]
   | .ok normalized =>
     [⟨normalized == a.serverOrigin, corrupt "server_origin is not normalized"⟩]) ++
  (match a.frozenAgentId with
   | none => []
   | some frozen => frozenAgentGuards frozen)

def payloadGuards (host : Host) (a : ActiveAttempt) : List Guard :=
  [⟨a.prompt.isSome, corrupt "claimed/pre-terminal attempt missing prompt"⟩,
   ⟨a.acceptance.isSome, corrupt "claimed/pre-terminal attempt missing acceptance"⟩,
   ⟨a.executionTimeoutSeconds.isSome,
    corrupt "claimed/pre-terminal attempt missing execution_timeout_seconds"⟩,
   ⟨a.resultTarget.isSome, corrupt "claimed/pre-terminal attempt missing result_target"⟩,
   ⟨a.payloadSha256.isSome, corrupt "claimed/pre-terminal attempt missing payload_sha256"⟩,
   ⟨a.payloadSha256 == some (host.computePayloadSha256 a.payload),
    "Active attempt payload integrity hash mismatch (LOCAL_STATE_INVALID)"⟩]

/-- The phases from `Prepared` on, for which the executor state is checked. -/
def isPrepared : Phase → Bool
  | .prepared | .dispatchIntent | .dispatched | .waiting | .outcomeRecorded => true
  | _ => false

def preparedGuards (a : ActiveAttempt) : List Guard :=
  match a.executor with
  | none => [⟨false, corrupt "prepared attempt missing executor state"⟩]
  | some exec =>
    (if a.phase == .outcomeRecorded && exec.runtimeCompletionKind == some "not_started" then []
     else
      [⟨exec.worktreeId.isSome && exec.terminalId.isSome,
        corrupt "prepared attempt missing worktree_id or terminal_id"⟩,
       ⟨exec.agentId.isSome, corrupt "prepared attempt missing agent_id"⟩]) ++
    -- `StartIntent` and `Started` are listed here, but they are not among the prepared phases
    (if a.phase == .dispatched || a.phase == .startIntent || a.phase == .started ||
        a.phase == .waiting then
      [⟨exec.dispatchRequestId.isSome,
        corrupt "dispatched/waiting attempt missing dispatch_request_id"⟩]
     else []) ++
    (if a.phase == .outcomeRecorded && (exec.runtimeCompletionKind == some "tui_idle" ||
        exec.runtimeCompletionKind == some "timed_out" ||
        exec.runtimeCompletionKind == some "interrupted") then
      [⟨exec.dispatchRequestId.isSome, corrupt "dispatched outcome missing dispatch_request_id"⟩]
     else [])

def phaseGuards (host : Host) (a : ActiveAttempt) : List Guard :=
  match a.phase with
  | .claimIntent | .recoveryRequired | .legacyRunning => []
  | .finalizedLocal =>
    [⟨a.terminalReportSha256.isSome,
      corrupt "finalized_local attempt missing terminal_report_sha256"⟩,
     ⟨isSha256Hex (a.terminalReportSha256.getD ""),
      corrupt "terminal_report_sha256 must be 64 lowercase hex characters"⟩]
  | _ => payloadGuards host a ++ if isPrepared a.phase then preparedGuards a else []

def validate (host : Host) (a : ActiveAttempt) : Except String Unit :=
  Guard.run (identityGuards host a ++ phaseGuards host a)

/-- What `validate` accepts. -/
def Valid (host : Host) (a : ActiveAttempt) : Prop :=
  Guard.All (identityGuards host a) ∧ Guard.All (phaseGuards host a)

theorem validate_ok_iff {host : Host} {a : ActiveAttempt} :
    a.validate host = .ok () ↔ a.Valid host := by
  simp [validate, Valid, Guard.run_ok_iff]

/-! ### the older formats -/

/-- A running attempt of the first format is for recovery. -/
def migrate (a : ActiveAttempt) : ActiveAttempt :=
  if a.phase = .legacyRunning then { a with phase := .recoveryRequired } else a

theorem migrate_phase (a : ActiveAttempt) : a.migrate.phase ≠ .legacyRunning := by
  unfold migrate
  split_ifs with h
  · simp
  · exact h

/-- What `load` makes of a record it has read: versions 4 to 7 are known. -/
def promote (a : ActiveAttempt) : Except String ActiveAttempt :=
  match a.schemaVersion with
  | 4 | 5 =>
    .ok ({ a with
      schemaVersion := activeAttemptSchemaVersion
      executor := a.executor.map fun exec =>
        if exec.turnStartedObserved then { exec with structuredLifecycleObserved := true }
        else exec } : ActiveAttempt).migrate
  | 6 => .ok ({ a with schemaVersion := activeAttemptSchemaVersion } : ActiveAttempt).migrate
  | 7 => .ok a.migrate
  | v => .error ("Unsupported schema version: " ++ toString v)

theorem promote_phase {a c : ActiveAttempt} (h : a.promote = .ok c) : c.phase ≠ .legacyRunning := by
  unfold promote at h
  split at h
  all_goals first
    | (cases h; exact migrate_phase _)
    | cases h

theorem migrate_identity (a : ActiveAttempt) :
    a.migrate.attemptId = a.attemptId ∧ a.migrate.jobId = a.jobId := by
  unfold migrate
  split_ifs <;> exact ⟨rfl, rfl⟩

theorem promote_identity {a c : ActiveAttempt} (h : a.promote = .ok c) :
    c.attemptId = a.attemptId ∧ c.jobId = a.jobId := by
  unfold promote at h
  split at h
  all_goals first
    | (cases h; exact migrate_identity _)
    | cases h

/-- `ActiveAttempt::load` of a file with the record `a`. -/
def load (host : Host) (a : ActiveAttempt) : Except String ActiveAttempt := do
  let attempt ← promote a
  attempt.validate host
  return attempt

theorem load_ok_iff {host : Host} {a b : ActiveAttempt} :
    a.load host = .ok b ↔ a.promote = .ok b ∧ b.Valid host := by
  unfold load
  cases hp : promote a with
  | error e => simp [bind, Except.bind]
  | ok c =>
    cases hv : c.validate host with
    | error e =>
      have : ¬ c.Valid host := fun h => by
        rw [← validate_ok_iff, hv] at h
        cases h
      simp only [bind, Except.bind, hv, Except.ok.injEq]
      constructor
      · intro h
        cases h
      · rintro ⟨rfl, h⟩
        exact absurd h this
    | ok u =>
      have hc : c.Valid host := validate_ok_iff.1 hv
      simp only [bind, Except.bind, hv, pure, Except.pure, Except.ok.injEq]
      exact ⟨fun h => ⟨h, h ▸ hc⟩, fun h => h.1⟩

/-- A valid record of the present version that is not a legacy one is loaded as it is. -/
theorem load_self {host : Host} {a : ActiveAttempt} (hv : a.Valid host)
    (hp : a.phase ≠ .legacyRunning) : a.load host = .ok a := by
  have h7 : a.schemaVersion = 7 := by
    have := hv.1
    simp only [identityGuards, Guard.all_append, Guard.all_cons, beq_iff_eq,
      activeAttemptSchemaVersion] at this
    exact this.1.1.1
  refine load_ok_iff.2 ⟨?_, hv⟩
  simp [promote, migrate, h7, hp]

end ActiveAttempt

end Ceo.Attempt
