import Ceo.Connector.ConfigMigration
import Ceo.Lib.Transition

/-!
# Login

`login_flow` (`enrollment.rs`) writes three files one after another: the pending
enrollment, the credential and the config. A login that is cut off between two
file operations or requests leaves a prefix of the writes, and the next login
decides by checks on the files before it comes to the writes that are missing.
The server's half is the enrollment routes of `router.ts` and the device
authentication of `device-auth.ts`.
-/

namespace Ceo.Connector.Login

open Ceo.Lib
open ConfigMigration (LocalConfig configSchemaVersion)

/-! ### the files -/

structure DeviceCredential where
  serverOrigin : String
  userId : String
  deviceId : String
  credentialId : String
  secret : String
  expiresAtMs : Int
  deriving DecidableEq, Repr

structure PendingEnrollmentSession where
  serverOrigin : String
  deviceCode : String
  userCode : String
  reservedDeviceId : String
  reservedCredentialId : String
  secret : String
  expiresAtMs : Int
  pollIntervalSeconds : Nat
  deriving DecidableEq, Repr

def PendingEnrollmentSession.isExpired (s : PendingEnrollmentSession) (now : Int) : Bool :=
  decide (s.expiresAtMs ≤ now)

/-- A file that is read as a record. It is `bad` when it does not parse, has another schema version
or names no origin. -/
inductive File (α : Type) where
  | missing
  | bad
  | good (a : α)
  deriving DecidableEq, Repr

def File.ofOption {α : Type} : Option α → File α
  | none => .missing
  | some a => .good a

structure Disk where
  config : File LocalConfig
  credential : File DeviceCredential
  enrollment : File PendingEnrollmentSession
  /-- There is an active attempt. -/
  activeAttempt : Bool
  /-- The outbox is not empty. -/
  outbox : Bool
  deriving DecidableEq, Repr

inductive EnrollmentError where
  /-- A file that does not load, a lock that is held, an operation or request that failed. -/
  | io
  | clientMismatch
  | unauthorized
  | localStateInvalid (message : String)
  | serverOriginMismatch (existing requested : String)
  | accessDenied
  | expired
  | notFound
  | reservedIdMismatch
  deriving DecidableEq, Repr

structure LoginOutcome where
  deviceId : String
  newlyEnrolled : Bool
  deriving DecidableEq, Repr

def File.load {α : Type} : File α → Except EnrollmentError (Option α)
  | .missing => .ok none
  | .bad => .error .io
  | .good a => .ok (some a)

/-! ### the server -/

inductive EnrollmentState where
  | pending
  | approved (userId : String)
  | denied
  | consumed
  deriving DecidableEq, Repr

structure DeviceEnrollment where
  deviceCode : String
  reservedDeviceId : String
  reservedCredentialId : String
  credentialSecretDigest : String
  state : EnrollmentState
  expiresAtMs : Int
  deriving DecidableEq, Repr

/-- A credential and its device, which are inserted together. -/
structure CredentialRecord where
  id : String
  deviceId : String
  userId : String
  secretDigest : String
  expiresAtMs : Int
  revoked : Bool
  deriving DecidableEq, Repr

structure Server where
  enrollments : List DeviceEnrollment
  credentials : List CredentialRecord
  deriving DecidableEq, Repr

/-- What is drawn at random for an enrollment: the secret by the client, the rest by the server. -/
structure Draw where
  deviceCode : String
  userCode : String
  deviceId : String
  credentialId : String
  secret : String
  deriving DecidableEq, Repr

/-- `normalize_server_origin`, the digest of a secret, `isUserActive`, and the random draws. -/
structure Env where
  normalizeServerOrigin : String → Except String String
  sha256 : String → String
  isUserActive : String → Bool
  draw : Server → Draw

def deviceEnrollmentTtlMs : Int := 10 * 60 * 1000

def deviceCredentialTtlMs : Int := 365 * 24 * 60 * 60 * 1000

structure DeviceIdentity where
  userId : String
  deviceId : String
  credentialId : String
  expiresAtMs : Int
  deriving DecidableEq, Repr

inductive PollOutcome where
  | approved (deviceId credentialId : String)
  | pending
  | slowDown
  | accessDenied
  | expired
  | notFound
  | invalidGrant
  /-- Status 500, an error of the client. -/
  | internalError
  deriving DecidableEq, Repr

namespace Server

/-- `GET /api/connector/identity`, with the token of a credential. -/
def identity (env : Env) (now : Int) (server : Server) (credentialId secret : String) :
    Option DeviceIdentity :=
  match server.credentials.find? (·.id == credentialId) with
  | none => none
  | some c =>
    if c.revoked || decide (c.expiresAtMs ≤ now) || !env.isUserActive c.userId ||
        env.sha256 secret != c.secretDigest then none
    else some ⟨c.userId, c.deviceId, c.id, c.expiresAtMs⟩

/-- `POST /api/connector/enrollments`: those that have expired are purged. -/
def begin (env : Env) (now : Int) (server : Server) : Server :=
  let draw := env.draw server
  { server with
    enrollments := server.enrollments.filter (fun e => decide (now ≤ e.expiresAtMs)) ++
      [⟨draw.deviceCode, draw.deviceId, draw.credentialId, env.sha256 draw.secret, .pending,
        now + deviceEnrollmentTtlMs⟩] }

def setState (server : Server) (deviceCode : String) (state : EnrollmentState) : Server :=
  { server with
    enrollments := server.enrollments.map fun e =>
      if e.deviceCode = deviceCode then { e with state := state } else e }

/-- `finalizeDeviceEnrollment`: a record that is there already has to be the same. -/
def finalizeDeviceEnrollment (env : Env) (now : Int) (server : Server) (e : DeviceEnrollment)
    (userId : String) : Option Server :=
  if !env.isUserActive userId then none
  else
    match server.credentials.find? (·.id == e.reservedCredentialId) with
    | some c =>
      if c.userId = userId ∧ c.deviceId = e.reservedDeviceId ∧
          c.secretDigest = e.credentialSecretDigest then some server
      else none
    | none => some { server with
        credentials := server.credentials ++ [⟨e.reservedCredentialId, e.reservedDeviceId, userId,
          e.credentialSecretDigest, now + deviceCredentialTtlMs, false⟩] }

/-- `POST /api/connector/enrollments/token`, a poll that does not come too soon. -/
def token (env : Env) (now : Int) (server : Server) (deviceCode : String) : PollOutcome × Server :=
  match server.enrollments.find? (·.deviceCode == deviceCode) with
  | none => (.notFound, server)
  | some e =>
    if e.expiresAtMs < now then (.expired, server)
    else
      match e.state with
      | .pending => (.pending, server)
      | .denied => (.accessDenied, server)
      | .approved userId =>
        match server.finalizeDeviceEnrollment env now e userId with
        | none => (.internalError, server)
        | some server =>
          (.approved e.reservedDeviceId e.reservedCredentialId, server.setState deviceCode .consumed)
      | .consumed =>
        match server.credentials.find? (·.deviceId == e.reservedDeviceId),
          server.credentials.find? (·.id == e.reservedCredentialId) with
        | some d, some c => (.approved d.deviceId c.id, server)
        | _, _ => (.invalidGrant, server)

/-- The consent page: an active user approves a pending enrollment. -/
def approve (env : Env) (now : Int) (server : Server) (deviceCode userId : String) : Server :=
  match server.enrollments.find? (·.deviceCode == deviceCode) with
  | none => server
  | some e =>
    if e.state = .pending ∧ now ≤ e.expiresAtMs ∧ env.isUserActive userId = true then
      server.setState deviceCode (.approved userId)
    else server

end Server

/-! ### login_flow -/

/-- What a login does next. -/
inductive Stage where
  | idle
  | identify (cred : DeviceCredential) (session : Option PendingEnrollmentSession)
  /-- About to remove an enrollment that has become the credential. -/
  | forget (cred : DeviceCredential)
  /-- About to remove an enrollment of another server, or one that has expired. -/
  | discard
  | begin
  | save (session : PendingEnrollmentSession)
  | wait (session : PendingEnrollmentSession) (interval : Nat)
  | poll (session : PendingEnrollmentSession) (interval : Nat)
  /-- About to remove the enrollment and to fail. -/
  | dismiss (error : EnrollmentError)
  | verify (session : PendingEnrollmentSession)
  | saveCredential (session : PendingEnrollmentSession) (cred : DeviceCredential)
  | saveConfig (session : PendingEnrollmentSession) (cred : DeviceCredential)
  | cleanUp (cred : DeviceCredential)
  | done (result : Except EnrollmentError LoginOutcome)

structure World where
  disk : Disk
  server : Server
  now : Int
  stage : Stage

/-- No login is going on. -/
def World.AtRest (w : World) : Prop := w.stage = .idle ∨ ∃ r, w.stage = .done r

/-- 1. The config of another server, beside what is bound to that server. -/
def boundElsewhere (origin : String) (d : Disk) : Except EnrollmentError Unit :=
  match d.config.load with
  | .error e => .error e
  | .ok none => .ok ()
  | .ok (some cfg) =>
    if cfg.serverUrl ≠ origin ∧
        (cfg.targets ≠ [] ∨ d.credential ≠ .missing ∨ d.activeAttempt = true ∨ d.outbox = true) then
      .error (.serverOriginMismatch cfg.serverUrl origin)
    else .ok ()

/-- 3. The pending enrollment is resumed or another one is begun. -/
def resolve (origin : String) (now : Int) : Option PendingEnrollmentSession → Stage
  | some session =>
    if session.serverOrigin = origin ∧ session.isExpired now = false then
      .wait session (max session.pollIntervalSeconds 2)
    else .discard
  | none => .begin

/-- 1. and 2., up to the first request or write. -/
def start (origin : String) (now : Int) (d : Disk) : Stage :=
  match boundElsewhere origin d with
  | .error e => .done (.error e)
  | .ok () =>
    match d.credential.load, d.enrollment.load with
    | .error e, _ | _, .error e => .done (.error e)
    | .ok (some cred), .ok (some session) =>
      if cred.serverOrigin ≠ session.serverOrigin then
        .done (.error (.localStateInvalid
          "credential and pending enrollment reference different server origins"))
      else .identify cred (some session)
    | .ok (some cred), .ok none =>
      if cred.serverOrigin = origin then .identify cred none else .begin
    | .ok none, .ok session => resolve origin now session

/-- The token of a credential is the server's and says what the file says. -/
def Server.Knows (env : Env) (now : Int) (server : Server) (cred : DeviceCredential) : Prop :=
  ∃ ident, server.identity env now cred.credentialId cred.secret = some ident ∧
    ident.deviceId = cred.deviceId ∧ ident.credentialId = cred.credentialId

/-- What follows on the answer to `GET /identity`. The client refuses a credential of another
origin. -/
def identified (env : Env) (origin : String) (w : World) (cred : DeviceCredential)
    (session : Option PendingEnrollmentSession) : Stage :=
  if origin ≠ cred.serverOrigin then .done (.error .clientMismatch)
  else
    match w.server.identity env w.now cred.credentialId cred.secret with
    | none => resolve origin w.now session
    | some ident =>
      if ident.deviceId = cred.deviceId ∧ ident.credentialId = cred.credentialId then
        match session with
        | none => .done (.ok ⟨cred.deviceId, false⟩)
        | some s =>
          if s.reservedDeviceId = cred.deviceId ∧ s.reservedCredentialId = cred.credentialId then
            .forget cred
          else .done (.error (.localStateInvalid
            "stale enrollment reserved IDs conflict with active valid credential"))
      else resolve origin w.now session

/-- `create_fresh_enrollment`, from the server's answer. -/
def newSession (env : Env) (origin : String) (now : Int) (server : Server) :
    PendingEnrollmentSession :=
  let draw := env.draw server
  { serverOrigin := origin, deviceCode := draw.deviceCode, userCode := draw.userCode
    reservedDeviceId := draw.deviceId, reservedCredentialId := draw.credentialId
    secret := draw.secret, expiresAtMs := now + deviceEnrollmentTtlMs / 1000 * 1000
    pollIntervalSeconds := 2 }

/-- What follows on the outcome of a poll. -/
def polled (session : PendingEnrollmentSession) (interval : Nat) : PollOutcome → Stage
  | .pending | .internalError => .wait session interval
  | .slowDown => .wait session (interval + 5)
  | .accessDenied => .dismiss .accessDenied
  | .expired => .dismiss .expired
  | .notFound => .dismiss .notFound
  | .invalidGrant => .dismiss (.localStateInvalid "server returned invalid_grant")
  | .approved deviceId credentialId =>
    if deviceId ≠ session.reservedDeviceId ∨ credentialId ≠ session.reservedCredentialId then
      .done (.error .reservedIdMismatch)
    else .verify session

/-- The identity of the candidate credential. -/
def verified (env : Env) (w : World) (session : PendingEnrollmentSession) : Stage :=
  match w.server.identity env w.now session.reservedCredentialId session.secret with
  | none => .done (.error .unauthorized)
  | some ident =>
    if ident.deviceId ≠ session.reservedDeviceId ∨
        ident.credentialId ≠ session.reservedCredentialId then
      .done (.error .reservedIdMismatch)
    else
      .saveCredential session ⟨session.serverOrigin, ident.userId, ident.deviceId,
        ident.credentialId, session.secret, ident.expiresAtMs⟩

def Disk.setConfig (d : Disk) (cfg : LocalConfig) : Disk := { d with config := .good cfg }
def Disk.setCredential (d : Disk) (c : DeviceCredential) : Disk := { d with credential := .good c }
def Disk.setEnrollment (d : Disk) (s : PendingEnrollmentSession) : Disk :=
  { d with enrollment := .good s }
def Disk.removeEnrollment (d : Disk) : Disk := { d with enrollment := .missing }

/-- `LocalConfig::new`, of an origin. -/
def newConfig (origin : String) : LocalConfig := ⟨configSchemaVersion, origin, []⟩

/-- The next operation is done. -/
def proceed (env : Env) (origin : String) (w : World) : World :=
  match w.stage with
  | .idle | .done _ => w
  | .identify cred session => { w with stage := identified env origin w cred session }
  | .forget cred =>
    { w with disk := w.disk.removeEnrollment, stage := .done (.ok ⟨cred.deviceId, false⟩) }
  | .discard => { w with disk := w.disk.removeEnrollment, stage := .begin }
  | .begin =>
    { w with
      server := w.server.begin env w.now
      stage := .save (newSession env origin w.now w.server) }
  | .save session =>
    { w with
      disk := w.disk.setEnrollment session
      stage := .wait session (max session.pollIntervalSeconds 2) }
  | .wait session interval =>
    { w with
      stage := if session.isExpired w.now then .dismiss .expired else .poll session interval }
  | .poll session interval =>
    let answer := w.server.token env w.now session.deviceCode
    { w with server := answer.2, stage := polled session interval answer.1 }
  | .dismiss error => { w with disk := w.disk.removeEnrollment, stage := .done (.error error) }
  | .verify session => { w with stage := verified env w session }
  | .saveCredential session cred =>
    { w with disk := w.disk.setCredential cred, stage := .saveConfig session cred }
  | .saveConfig session cred =>
    match w.disk.config.load with
    | .error e => { w with stage := .done (.error e) }
    | .ok cfg =>
      { w with
        disk := w.disk.setConfig
          { cfg.getD (newConfig session.serverOrigin) with serverUrl := session.serverOrigin }
        stage := .cleanUp cred }
  | .cleanUp cred =>
    { w with disk := w.disk.removeEnrollment, stage := .done (.ok ⟨cred.deviceId, true⟩) }

/-- The next operation fails and nothing is written. A poll is tried again; the answer of the server
may have been lost. -/
def fail (env : Env) (lost : Bool) (w : World) : World :=
  match w.stage with
  | .idle | .done _ => w
  | .poll session interval =>
    { w with
      server := if lost then (w.server.token env w.now session.deviceCode).2 else w.server
      stage := .wait session interval }
  | .begin =>
    { w with
      server := if lost then w.server.begin env w.now else w.server
      stage := .done (.error .io) }
  | _ => { w with stage := .done (.error .io) }

inductive Event where
  | login
  | proceed
  /-- A poll is answered that it comes too soon. -/
  | slow
  | fail (lost : Bool)
  | crash
  | approve (deviceCode userId : String)
  | tick (ms : Nat)
  deriving DecidableEq, Repr

def step (env : Env) (origin : String) (w : World) : Event → World
  | .login =>
    match w.stage with
    | .idle | .done _ => { w with stage := start origin w.now w.disk }
    | _ => w
  | .proceed => proceed env origin w
  | .slow =>
    match w.stage with
    | .poll session interval => { w with stage := polled session interval .slowDown }
    | _ => w
  | .fail lost => fail env lost w
  | .crash => { w with stage := .idle }
  | .approve deviceCode userId =>
    { w with server := w.server.approve env w.now deviceCode userId }
  | .tick ms => { w with now := w.now + ms }

/-- Logins for one server. -/
def system (env : Env) (origin : String) (Init : World → Prop) : LTS World Event :=
  LTS.ofFun Init (step env origin)

/-! ### load_bound_profile -/

structure BoundProfile where
  config : LocalConfig
  credential : DeviceCredential

inductive ProfileError where
  | notLoggedIn
  | io
  | config (message : String)
  | localCredentialServerMismatch (expected actual : String)

/-- The config has the steady schema. -/
def loadBoundProfile (env : Env) (d : Disk) : Except ProfileError BoundProfile :=
  match d.credential.load with
  | .error _ => .error .io
  | .ok none => .error .notLoggedIn
  | .ok (some credential) =>
    match d.config.load with
    | .error _ => .error .io
    | .ok cfg =>
      let config := cfg.getD (newConfig credential.serverOrigin)
      match env.normalizeServerOrigin config.serverUrl with
      | .error e => .error (.config e)
      | .ok normalized =>
        if normalized ≠ credential.serverOrigin then
          .error (.localCredentialServerMismatch normalized credential.serverOrigin)
        else .ok ⟨config, credential⟩

end Ceo.Connector.Login
