import Ceo.Lib.Keyed
import Ceo.Lib.Transition
import Ceo.Jobs.Contract
import Ceo.Connector.Eligibility
import Mathlib.Data.List.DropRight

/-!
# Device enrollment

How a device comes to act for a user: the store of enrollments
(`connector/enrollment-store.ts`), the handlers that begin one, show the
consent page, take the decision and answer the device's polls
(`connector/router.ts`), `finalizeDeviceEnrollment` of the control store, and
the middleware of `connector/device-auth.ts`. A handler has no `await`, so a
request is one step. A restart forgets the enrollments and keeps the database.
-/

namespace Ceo.Connector.Enrollment

open Ceo.Lib
open Ceo.Jobs (isJsSpace jsLength hex64Re)
open Ceo.Connector.Eligibility (DeviceRecord)

/-! ### the records -/

inductive DeviceEnrollmentState where
  | pending | approved | denied | consumed
  deriving DecidableEq, Repr

structure DeviceEnrollment where
  enrollmentId : String
  deviceCodeDigest : String
  userCode : String
  reservedDeviceId : String
  reservedCredentialId : String
  displayName : String
  platform : String
  credentialSecretDigest : String
  state : DeviceEnrollmentState
  approvedUserId : Option String
  consentNonceDigest : Option String
  createdAtMs : Int
  expiresAtMs : Int
  approvedAtMs : Option Int
  consumedAtMs : Option Int
  lastPollAtMs : Option Int
  deriving DecidableEq, Repr

structure DeviceCredentialRecord where
  id : String
  deviceId : String
  secretDigest : String
  issuedAtMs : Int
  expiresAtMs : Int
  revokedAtMs : Option Int
  deriving DecidableEq, Repr

structure DeviceEnrollmentStore where
  enrollments : Keyed DeviceEnrollment.enrollmentId
  userCodeIndex : String → Option String
  deviceCodeDigestIndex : String → Option String

def DeviceEnrollmentStore.empty : DeviceEnrollmentStore := ⟨.empty, fun _ => none, fun _ => none⟩

def credentialTtlMs : Int := 365 * 24 * 60 * 60 * 1000
def pollIntervalMs : Int := 2000

/-- What the service is given. -/
structure Service where
  maxActive : Nat
  ttlMs : Int
  sha256Hex : String → String
  toLowerCase : String → String
  toUpperCase : String → String

def trim (s : String) : String :=
  String.ofList ((s.toList.dropWhile isJsSpace).rdropWhile isJsSpace)

/-! ### the store of enrollments -/

def crockford (c : Char) : Bool := c ∈ "23456789ABCDEFGHJKMNPQRSTVWXYZ".toList

def userCodeRe : String → Bool :=
  Pattern.test (Pattern.rep 4 crockford ++ Pattern.lit "-" ++ Pattern.rep 4 crockford)

inductive EnrollmentError where
  | validation (message : String)
  | capacity (message : String)
  deriving DecidableEq, Repr

def normalizeDeviceUserCode (S : Service) (raw : String) : Except EnrollmentError String :=
  let upper := S.toUpperCase (trim raw)
  let s := if jsLength upper = 8 ∧ '-' ∉ upper.toList then
      String.ofList (upper.toList.take 4) ++ "-" ++ String.ofList (upper.toList.drop 4)
    else upper
  if userCodeRe s then .ok s
  else .error (.validation ("Invalid user_code '" ++ raw ++
    "'; must match format XXXX-XXXX using alphabet 23456789ABCDEFGHJKMNPQRSTVWXYZ."))

namespace DeviceEnrollmentStore

variable (m : DeviceEnrollmentStore)

/-- One enrollment is deleted from the map and from both indexes. -/
def forget (e : DeviceEnrollment) : DeviceEnrollmentStore where
  enrollments := m.enrollments.erase e.enrollmentId
  userCodeIndex := Function.update m.userCodeIndex e.userCode none
  deviceCodeDigestIndex := Function.update m.deviceCodeDigestIndex e.deviceCodeDigest none

def purgeExpired (nowMs : Int) : DeviceEnrollmentStore :=
  (m.enrollments.items.filter (·.expiresAtMs < nowMs)).foldl forget m

structure EnrollmentInput where
  displayName : String
  platform : String
  credentialSecretDigest : String

/-- What is drawn for a new enrollment: user codes until one is free. -/
structure Draws where
  userCodes : List String
  deviceCode : String
  enrollmentId : String
  deviceId : String
  credentialId : String

/-- The enrollment and its two index entries. -/
def record (e : DeviceEnrollment) : DeviceEnrollmentStore where
  enrollments := m.enrollments.set e
  userCodeIndex := Function.update m.userCodeIndex e.userCode (some e.enrollmentId)
  deviceCodeDigestIndex :=
    Function.update m.deviceCodeDigestIndex e.deviceCodeDigest (some e.enrollmentId)

/-- The store after the call, which has lost its expired enrollments also where the call throws;
nothing where the drawn user codes are all taken, for then the loop draws again. -/
def createEnrollment (S : Service) (input : EnrollmentInput) (draws : Draws) (now : Int) :
    Option (DeviceEnrollmentStore × Except EnrollmentError DeviceEnrollment) :=
  let displayName := trim input.displayName
  if jsLength displayName = 0 ∨ 128 < jsLength displayName then
    some (m, .error (.validation "display_name must be between 1 and 128 characters."))
  else
    let platform := S.toLowerCase (trim input.platform)
    if platform ∉ ["linux", "windows", "macos"] then
      some (m, .error (.validation "platform must be one of: linux, windows, macos."))
    else if !hex64Re input.credentialSecretDigest then
      some (m, .error (.validation
        "credential_secret_sha256 must be exactly 64 lowercase hex characters."))
    else
      let m := m.purgeExpired now
      if S.maxActive ≤ m.enrollments.items.length then
        some (m, .error (.capacity "Enrollment capacity exceeded; try again later."))
      else
        match draws.userCodes.find? fun c => m.userCodeIndex c = none with
        | none => none
        | some userCode =>
          let e : DeviceEnrollment :=
            { enrollmentId := draws.enrollmentId
              deviceCodeDigest := S.sha256Hex draws.deviceCode
              userCode := userCode
              reservedDeviceId := draws.deviceId
              reservedCredentialId := draws.credentialId
              displayName := displayName
              platform := platform
              credentialSecretDigest := input.credentialSecretDigest
              state := .pending
              approvedUserId := none
              consentNonceDigest := none
              createdAtMs := now
              expiresAtMs := now + S.ttlMs
              approvedAtMs := none
              consumedAtMs := none
              lastPollAtMs := none }
          some (m.record e, .ok e)

def findByUserCode (S : Service) (userCode : String) (now : Int) :
    Except EnrollmentError (Option DeviceEnrollment) :=
  (normalizeDeviceUserCode S userCode).map fun normalized =>
    ((m.userCodeIndex normalized).bind m.enrollments.find).filter fun e => !(e.expiresAtMs < now)

def lookupByDeviceCodeDigest (digest : String) : Option DeviceEnrollment :=
  (m.deviceCodeDigestIndex digest).bind m.enrollments.find

/-- An enrollment is changed where it is. -/
def change (e : DeviceEnrollment) : DeviceEnrollmentStore :=
  { m with enrollments := m.enrollments.put e }

def setConsentNonce (e : DeviceEnrollment) (nonceDigest : String) : DeviceEnrollmentStore :=
  m.change { e with consentNonceDigest := some nonceDigest }

def approve (e : DeviceEnrollment) (userId : String) (now : Int) : DeviceEnrollmentStore :=
  if e.state ≠ .pending ∨ e.expiresAtMs < now then m
  else m.change { e with
    state := .approved, approvedUserId := some userId, approvedAtMs := some now }

def deny (e : DeviceEnrollment) : DeviceEnrollmentStore :=
  if e.state ≠ .pending then m else m.change { e with state := .denied }

def markConsumed (e : DeviceEnrollment) (now : Int) : DeviceEnrollmentStore :=
  if e.state ≠ .approved then m
  else m.change { e with state := .consumed, consumedAtMs := some now }

/-- A poll is recorded; a time of 0 counts as none. -/
def polled (e : DeviceEnrollment) (now : Int) : DeviceEnrollment := { e with lastPollAtMs := some now }

def slowDown (e : DeviceEnrollment) (now : Int) : Bool :=
  e.lastPollAtMs.any fun last => last ≠ 0 && now - last < pollIntervalMs

end DeviceEnrollmentStore

/-! ### the database -/

/-- The tables that enrollment touches. -/
structure ControlDb where
  activeUsers : String → Bool
  devices : Keyed DeviceRecord.id
  credentials : Keyed DeviceCredentialRecord.id

inductive ControlError where
  | validation (message : String)
  | notFound (message : String)
  | conflict (message : String)
  /-- A unique constraint. -/
  | constraint
  deriving DecidableEq, Repr

structure Finalized where
  device : DeviceRecord
  credential : DeviceCredentialRecord
  replayed : Bool
  deriving DecidableEq, Repr

/-- The rows that `finalizeDeviceEnrollment` inserts for an enrollment. -/
def deviceOf (e : DeviceEnrollment) (userId : String) (issuedAt : Int) : DeviceRecord where
  id := e.reservedDeviceId
  userId := userId
  displayName := trim e.displayName
  platform := e.platform
  createdAtMs := issuedAt
  updatedAtMs := issuedAt
  revokedAtMs := none

def credentialOf (e : DeviceEnrollment) (issuedAt : Int) : DeviceCredentialRecord where
  id := e.reservedCredentialId
  deviceId := e.reservedDeviceId
  secretDigest := e.credentialSecretDigest
  issuedAtMs := issuedAt
  expiresAtMs := issuedAt + credentialTtlMs
  revokedAtMs := none

/-- The existing rows are those of the enrollment. -/
def isReplay (device : DeviceRecord) (credential : DeviceCredentialRecord) (e : DeviceEnrollment)
    (userId : String) : Bool :=
  device.userId = userId && device.displayName = trim e.displayName &&
    device.platform = e.platform && credential.deviceId = e.reservedDeviceId &&
    credential.secretDigest = e.credentialSecretDigest

namespace ControlDb

variable (db : ControlDb)

def finalizeDeviceEnrollment (S : Service) (enr : DeviceEnrollment) (userId : String) (issuedAt : Int) :
    Except ControlError (ControlDb × Finalized) :=
  let displayName := trim enr.displayName
  let e := { enr with platform := S.toLowerCase (trim enr.platform) }
  if jsLength displayName = 0 ∨ 128 < jsLength displayName then
    .error (.validation "Device display_name must be between 1 and 128 characters.")
  else if jsLength e.platform = 0 ∨ 32 < jsLength e.platform then
    .error (.validation "Device platform must be between 1 and 32 characters.")
  else if !hex64Re e.credentialSecretDigest then
    .error (.validation "secret_digest must be a 64-character lowercase hex string.")
  else if issuedAt + credentialTtlMs ≤ issuedAt then
    .error (.validation "expires_at_ms must be strictly greater than issued_at_ms.")
  else if !db.activeUsers userId then
    .error (.notFound ("User '" ++ userId ++ "' not found or disabled."))
  else
    match db.devices.find e.reservedDeviceId, db.credentials.find e.reservedCredentialId with
    | some device, some credential =>
      if isReplay device credential e userId then .ok (db, ⟨device, credential, true⟩)
      else .error (.conflict ("Conflict: Device '" ++ e.reservedDeviceId ++ "' and/or Credential '" ++
        e.reservedCredentialId ++ "' already exist with conflicting metadata."))
    | some _, none | none, some _ =>
      .error (.conflict ("Conflict: Partial existing state for Device '" ++ e.reservedDeviceId ++
        "' or Credential '" ++ e.reservedCredentialId ++ "'."))
    | none, none =>
      match db.credentials.insert (·.secretDigest == ·.secretDigest) (credentialOf e issuedAt) with
      | none => .error .constraint
      | some credentials =>
        .ok ({ db with devices := db.devices.add (deviceOf e userId issuedAt), credentials },
          ⟨deviceOf e userId issuedAt, credentialOf e issuedAt, false⟩)

def revokeDevice (deviceId : String) (now : Int) : ControlDb :=
  { db with
    devices := db.devices.update (fun d => d.id = deviceId && d.revokedAtMs.isNone)
      (fun d => { d with revokedAtMs := some now, updatedAtMs := now }) fun _ => rfl }

def revokeDeviceCredential (credentialId : String) (now : Int) : ControlDb :=
  { db with
    credentials := db.credentials.update (fun c => c.id = credentialId && c.revokedAtMs.isNone)
      (fun c => { c with revokedAtMs := some now }) fun _ => rfl }

end ControlDb

/-! ### device-auth.ts -/

def deviceCredentialPrefix : List Char := "ceo_dev1.".toList

/-- `CREDENTIAL_ID_RE` -/
def credentialIdRe : String → Bool :=
  Pattern.test (Pattern.lit "dcr_" ++ Pattern.uuid Pattern.hex)

structure BearerToken where
  credentialId : String
  secret : String
  deriving DecidableEq, Repr

def parseDeviceBearerToken (raw : String) : Option BearerToken :=
  if deviceCredentialPrefix <+: raw.toList then
    let rest := raw.toList.drop deviceCredentialPrefix.length
    if '.' ∈ rest then
      let credentialId := String.ofList (rest.takeWhile (· ≠ '.'))
      let secret := String.ofList ((rest.dropWhile (· ≠ '.')).drop 1)
      if !credentialIdRe credentialId ∨ secret = "" then none else some ⟨credentialId, secret⟩
    else none
  else none

/-- `bearer_token` of the connector (`credential.rs`). -/
def bearerToken (credentialId secret : String) : String :=
  "ceo_dev1." ++ credentialId ++ "." ++ secret

structure DeviceAuthIdentity where
  userId : String
  deviceId : String
  credentialId : String
  deriving DecidableEq, Repr

/-- The middleware, from the token of the `Authorization` header on; it answers 401 with none. -/
def ControlDb.authenticate (db : ControlDb) (S : Service) (token : String) (now : Int) :
    Option DeviceAuthIdentity :=
  match parseDeviceBearerToken token with
  | none => none
  | some parsed =>
    match db.credentials.find parsed.credentialId with
    | none => none
    | some credential =>
      if credential.revokedAtMs.isSome ∨ credential.expiresAtMs ≤ now then none
      else
        match db.devices.find credential.deviceId with
        | none => none
        | some device =>
          if device.revokedAtMs.isSome then none
          else if !db.activeUsers device.userId then none
          else if S.sha256Hex parsed.secret ≠ credential.secretDigest then none
          else some ⟨device.userId, device.id, credential.id⟩

/-! ### the handlers -/

/-- What happened, in order; nothing reads it. -/
inductive Event where
  | approved (e : DeviceEnrollment) (userId : String)
  | answered (deviceCodeDigest deviceId credentialId : String) (replayed : Bool)
  deriving DecidableEq, Repr

structure State where
  store : DeviceEnrollmentStore
  db : ControlDb
  history : List Event

inductive Reply where
  | json (status : Nat) (error : String)
  | begun (deviceCode userCode deviceId credentialId : String) (expiresIn : Int)
  | granted (f : Finalized)
  | html (status : Nat) (title : String)
  | consentForm (userCode nonce : String)
  | redirect (userCode : String)
  | revoked
  deriving DecidableEq, Repr

/-- The readings of the clock in one handler, in order. -/
abbrev Clock := Nat → Int

variable (S : Service)

def begin (s : State) (input : DeviceEnrollmentStore.EnrollmentInput)
    (draws : DeviceEnrollmentStore.Draws) (clock : Clock) : Option (State × Reply) :=
  (s.store.createEnrollment S input draws (clock 0)).map fun
  | (store, .error (.capacity _)) =>
    ({ s with store }, .json 503 "enrollment_capacity_exceeded")
  | (store, .error (.validation _)) => ({ s with store }, .json 400 "invalid_request")
  | (store, .ok e) =>
    ({ s with store }, .begun draws.deviceCode e.userCode e.reservedDeviceId
      e.reservedCredentialId ((e.expiresAtMs - e.createdAtMs) / 1000))

/-- The user of a session who is still active. -/
def State.activeUser (s : State) (session : Option String) : Option String :=
  session.filter fun u => s.db.activeUsers u

/-- `GET /connector/enroll` -/
def consentPage (s : State) (session : Option String) (rawCode nonce : String) (clock : Clock) :
    State × Reply :=
  match normalizeDeviceUserCode S rawCode with
  | .error _ => (s, .html 400 "Invalid Code")
  | .ok userCode =>
    match s.activeUser session with
    | none => (s, .redirect userCode)
    | some userId =>
      match s.store.findByUserCode S userCode (clock 0) with
      | .error _ => (s, .html 500 "Error")
      | .ok none => (s, .html 404 "Enrollment Not Found")
      | .ok (some e) =>
        match e.state with
        | .denied => (s, .html 200 "Authorization Denied")
        | .approved | .consumed =>
          if e.approvedUserId = some userId then (s, .html 200 "Device Authorized")
          else (s, .html 403 "Conflict")
        | .pending =>
          ({ s with store := s.store.setConsentNonce e (S.sha256Hex nonce) },
            .consentForm e.userCode nonce)

/-- `POST /connector/enroll/decision` -/
def decide (s : State) (session : Option String) (rawCode nonce decision : String) (clock : Clock) :
    State × Reply :=
  match s.activeUser session with
  | none => (s, .html 401 "Unauthorized")
  | some userId =>
    if rawCode = "" ∨ nonce = "" then (s, .html 400 "Error")
    else
      match normalizeDeviceUserCode S rawCode with
      | .error _ => (s, .html 400 "Error")
      | .ok userCode =>
        match s.store.findByUserCode S userCode (clock 0) with
        | .error _ => (s, .html 500 "Error")
        | .ok none => (s, .html 404 "Expired")
        | .ok (some e) =>
          if e.state ≠ .pending then
            if e.state = .approved ∧ e.approvedUserId = some userId then
              (s, .html 200 "Device Authorized")
            else (s, .html 400 "Error")
          else
            match e.consentNonceDigest with
            | none => (s, .html 400 "Error")
            | some digest =>
              if S.sha256Hex nonce ≠ digest then (s, .html 400 "Security Warning")
              else if decision = "approve" then
                -- the page says so also where the enrollment has expired since it was found
                if e.expiresAtMs < clock 1 then (s, .html 200 "Device Authorized")
                else
                  ({ s with
                      store := s.store.approve e userId (clock 1)
                      history := s.history ++ [.approved e userId] },
                    .html 200 "Device Authorized")
              else if decision = "deny" then
                ({ s with store := s.store.deny e }, .html 200 "Authorization Denied")
              else (s, .html 400 "Invalid Decision")

/-- What a poll answers for the enrollment it has found, `e`, recorded as polled. -/
def answerPoll (s : State) (e : DeviceEnrollment) (clock : Clock) : State × Reply :=
  match e.state with
  | .pending => (s, .json 400 "authorization_pending")
  | .denied => (s, .json 400 "access_denied")
  | .approved =>
    match e.approvedUserId with
    | none => (s, .json 500 "internal_error")
    | some userId =>
      match s.db.finalizeDeviceEnrollment S e userId (clock 2) with
      | .error _ => (s, .json 500 "internal_error")
      | .ok (db, f) =>
        ({ store := s.store.markConsumed e (clock 3)
           db := db
           history := s.history ++
             [.answered e.deviceCodeDigest f.device.id f.credential.id f.replayed] }, .granted f)
  | .consumed =>
    match s.db.devices.find e.reservedDeviceId, s.db.credentials.find e.reservedCredentialId with
    | some device, some credential =>
      ({ s with
          history := s.history ++ [.answered e.deviceCodeDigest device.id credential.id true] },
        .granted ⟨device, credential, true⟩)
    | _, _ => (s, .json 400 "invalid_grant")

/-- `POST /api/connector/enrollments/token` -/
def poll (s : State) (deviceCode : String) (clock : Clock) : State × Reply :=
  if deviceCode = "" then (s, .json 400 "invalid_request")
  else
    match s.store.lookupByDeviceCodeDigest (S.sha256Hex (trim deviceCode)) with
    | none => (s, .json 400 "enrollment_not_found")
    | some e =>
      if e.expiresAtMs < clock 0 then (s, .json 400 "expired_token")
      else
        let polled := DeviceEnrollmentStore.polled e (clock 1)
        let s' := { s with store := s.store.change polled }
        if DeviceEnrollmentStore.slowDown e (clock 1) then (s', .json 400 "slow_down")
        else answerPoll S s' polled clock

/-! ### the server -/

inductive Request where
  | begin (input : DeviceEnrollmentStore.EnrollmentInput) (draws : DeviceEnrollmentStore.Draws)
  | consentPage (session : Option String) (userCode nonce : String)
  | decide (session : Option String) (userCode nonce decision : String)
  | poll (deviceCode : String)
  /-- A device revokes itself. -/
  | revokeSelf (token : String)
  /-- A user revokes a device of theirs. -/
  | revokeByUser (userId deviceId : String)
  | revokeCredential (credentialId : String)
  | setUserActive (userId : String) (active : Bool)
  /-- The process ends and starts again. -/
  | restart

def handle (s : State) (clock : Clock) : Request → Option (State × Reply)
  | .begin input draws => begin S s input draws clock
  | .consentPage session userCode nonce => some (consentPage S s session userCode nonce clock)
  | .decide session userCode nonce decision =>
    some (decide S s session userCode nonce decision clock)
  | .poll deviceCode => some (poll S s deviceCode clock)
  | .revokeSelf token =>
    match s.db.authenticate S token (clock 0) with
    | none => some (s, .json 401 "unauthorized")
    | some auth => some ({ s with db := s.db.revokeDevice auth.deviceId (clock 1) }, .revoked)
  | .revokeByUser userId deviceId =>
    match s.db.devices.find deviceId with
    | none => some (s, .json 404 "Device not found")
    | some device =>
      if device.userId ≠ userId then some (s, .json 404 "Device not found")
      else some ({ s with db := s.db.revokeDevice deviceId (clock 0) }, .revoked)
  | .revokeCredential credentialId =>
    some ({ s with db := s.db.revokeDeviceCredential credentialId (clock 0) }, .revoked)
  | .setUserActive userId active =>
    some ({ s with db := { s.db with
      activeUsers := Function.update s.db.activeUsers userId active } }, .revoked)
  | .restart => some ({ s with store := .empty }, .revoked)

/-- A fresh database; who is active is anyone's choice. -/
def Initial (s : State) : Prop :=
  s.store = .empty ∧ s.db.devices = .empty ∧ s.db.credentials = .empty ∧ s.history = []

def server : LTS State (Request × Clock) :=
  .ofOption Initial fun s a => (handle S s a.2 a.1).map (·.1)

/-- The device code and the enrollment id that are drawn are new, and the credential id has the
form that `newId` gives it. -/
def freshDraws (s : State) (draws : DeviceEnrollmentStore.Draws) : Prop :=
  (∀ e ∈ s.store.enrollments.items,
    e.enrollmentId ≠ draws.enrollmentId ∧ e.deviceCodeDigest ≠ S.sha256Hex draws.deviceCode) ∧
  (∀ deviceId credentialId replayed,
    .answered (S.sha256Hex draws.deviceCode) deviceId credentialId replayed ∉ s.history) ∧
  credentialIdRe draws.credentialId = true

def drawsFresh (s : State) (a : Request × Clock) : Prop :=
  match a.1 with
  | .begin _ draws => freshDraws S s draws
  | _ => True

end Ceo.Connector.Enrollment
