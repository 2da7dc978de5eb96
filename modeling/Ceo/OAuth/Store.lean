import Ceo.Lib.Keyed

/-!
# The OAuth store

The tables of `oauth/store.ts` and its transactions. An insert that meets a
primary key or a unique digest that is there makes the transaction throw, and
nothing of it stays. A transaction is one step: SQLite runs them one at a time.
-/

namespace Ceo.OAuth

open Ceo.Lib

inductive Decision where
  | approved | denied
  deriving DecidableEq, Repr

structure AuthorizationRequestRecord where
  id : String
  clientId : String
  clientName : String
  redirectUri : String
  resource : String
  scope : String
  state : Option String
  codeChallenge : String
  codeChallengeMethod : String
  createdAtMs : Int
  expiresAtMs : Int
  decision : Option Decision
  userId : Option String
  workspaceId : Option String
  consentNonceDigest : Option String
  deriving DecidableEq, Repr

structure AuthorizationCodeRecord where
  id : String
  codeDigest : String
  clientId : String
  redirectUri : String
  userId : String
  workspaceId : String
  resource : String
  scope : String
  codeChallenge : String
  issuedAtMs : Int
  expiresAtMs : Int
  consumedAtMs : Option Int
  deriving DecidableEq, Repr

structure AccessTokenRecord where
  id : String
  tokenDigest : String
  clientId : String
  userId : String
  workspaceId : String
  resource : String
  scope : String
  issuedAtMs : Int
  expiresAtMs : Int
  revokedAtMs : Option Int
  deriving DecidableEq, Repr

structure RefreshTokenRecord where
  id : String
  tokenDigest : String
  familyId : String
  clientId : String
  userId : String
  workspaceId : String
  resource : String
  scope : String
  issuedAtMs : Int
  expiresAtMs : Int
  consumedAtMs : Option Int
  revokedAtMs : Option Int
  deriving DecidableEq, Repr

structure OAuthStore where
  requests : Keyed AuthorizationRequestRecord.id
  codes : Keyed AuthorizationCodeRecord.id
  accessTokens : Keyed AccessTokenRecord.id
  refreshTokens : Keyed RefreshTokenRecord.id

def OAuthStore.empty : OAuthStore := ⟨.empty, .empty, .empty, .empty⟩

/-- `OAuthStoreUnavailable` -/
inductive StoreError where
  | unavailable
  deriving DecidableEq, Repr

/-- A transaction: its result and the store after it, or it throws. -/
abbrev Tx (α : Type) := OAuthStore → Except StoreError (α × OAuthStore)

/-- The error a transaction on tokens answers. -/
inductive GrantError where
  | invalidGrant | invalidTarget
  deriving DecidableEq, Repr

structure ApproveInput where
  requestId : String
  nonceDigest : String
  userId : String
  workspaceId : String
  codeId : String
  codeDigest : String
  nowMs : Int
  codeExpiresAtMs : Int
  deriving DecidableEq, Repr

structure ConsumeInput where
  codeDigest : String
  clientId : String
  redirectUri : String
  resource : String
  codeVerifier : String
  accessTokenId : String
  accessTokenDigest : String
  accessTokenExpiresAtMs : Int
  refreshTokenId : String
  refreshTokenDigest : String
  refreshTokenFamilyId : String
  refreshTokenExpiresAtMs : Int
  nowMs : Int
  deriving DecidableEq, Repr

structure RotateInput where
  oldTokenDigest : String
  clientId : String
  resource : String
  newScope : String
  accessTokenId : String
  accessTokenDigest : String
  accessTokenExpiresAtMs : Int
  newRefreshTokenId : String
  newRefreshTokenDigest : String
  newRefreshTokenExpiresAtMs : Int
  nowMs : Int
  deriving DecidableEq, Repr

structure Exchanged where
  code : AuthorizationCodeRecord
  accessToken : AccessTokenRecord
  refreshToken : RefreshTokenRecord
  deriving DecidableEq, Repr

structure Rotated where
  oldRefreshToken : RefreshTokenRecord
  accessToken : AccessTokenRecord
  newRefreshToken : RefreshTokenRecord
  deriving DecidableEq, Repr

/-- `decision IS NULL AND expires_at_ms > ?` of a request. -/
def AuthorizationRequestRecord.isPending (r : AuthorizationRequestRecord) (id : String)
    (nowMs : Int) : Bool :=
  r.id = id && r.decision.isNone && nowMs < r.expiresAtMs

namespace OAuthStore

open AuthorizationRequestRecord (isPending)

/-! ### the transactions -/

def createAuthorizationRequest (record : AuthorizationRequestRecord) : Tx Unit := fun s =>
  match s.requests.insert (fun _ _ => false)
      { record with
        decision := none, userId := none, workspaceId := none, consentNonceDigest := none } with
  | none => .error .unavailable
  | some requests => .ok ((), { s with requests })

def getAuthorizationRequest (id : String) : Tx (Option AuthorizationRequestRecord) := fun s =>
  .ok (s.requests.find id, s)

def setConsentNonceDigest (id nonceDigest : String) (nowMs : Int) : Tx Bool := fun s =>
  .ok (s.requests.items.countP (isPending · id nowMs) = 1,
    { s with
      requests := s.requests.update (isPending · id nowMs)
        (fun r => { r with consentNonceDigest := some nonceDigest }) fun _ => rfl })

/-- The code that an approval of `req` issues. -/
def codeOf (req : AuthorizationRequestRecord) (input : ApproveInput) : AuthorizationCodeRecord where
  id := input.codeId
  codeDigest := input.codeDigest
  clientId := req.clientId
  redirectUri := req.redirectUri
  userId := input.userId
  workspaceId := input.workspaceId
  resource := req.resource
  scope := req.scope
  codeChallenge := req.codeChallenge
  issuedAtMs := input.nowMs
  expiresAtMs := input.codeExpiresAtMs
  consumedAtMs := none

/-- `WHERE id = ? AND decision IS NULL` -/
def isUndecided (id : String) (r : AuthorizationRequestRecord) : Bool :=
  r.id = id && r.decision.isNone

def decide (s : OAuthStore) (id : String) (f : AuthorizationRequestRecord → AuthorizationRequestRecord)
    (same : ∀ r, (f r).id = r.id) : Option OAuthStore :=
  if s.requests.items.countP (isUndecided id) ≠ 1 then none
  else some { s with requests := s.requests.update (isUndecided id) f same }

def approveConsentAndIssueCode (input : ApproveInput) : Tx (Option AuthorizationCodeRecord) := fun s =>
  match s.requests.items.find? (isPending · input.requestId input.nowMs) with
  | none => .ok (none, s)
  | some req =>
    -- a digest that is not set, or the empty string, matches nothing
    if req.consentNonceDigest ≠ some input.nonceDigest ∨ input.nonceDigest = "" then .ok (none, s)
    else match s.decide input.requestId
        (fun r => { r with
          decision := some .approved, userId := some input.userId,
          workspaceId := some input.workspaceId }) fun _ => rfl with
      | none => .ok (none, s)
      | some s' =>
        match s.codes.insert (·.codeDigest == ·.codeDigest) (codeOf req input) with
        | none => .error .unavailable
        | some codes => .ok (some (codeOf req input), { s' with codes })

def denyConsent (requestId nonceDigest : String) (nowMs : Int) : Tx Bool := fun s =>
  match s.requests.items.find? (isPending · requestId nowMs) with
  | none => .ok (false, s)
  | some req =>
    if req.consentNonceDigest ≠ some nonceDigest then .ok (false, s)
    else match s.decide requestId (fun r => { r with decision := some .denied }) fun _ => rfl with
      | none => .ok (false, s)
      | some s' => .ok (true, s')

/-- Both inserts of a transaction that issues tokens. -/
def issue (s : OAuthStore) (access : AccessTokenRecord) (refresh : RefreshTokenRecord) :
    Option OAuthStore := do
  let accessTokens ← s.accessTokens.insert (·.tokenDigest == ·.tokenDigest) access
  let refreshTokens ← s.refreshTokens.insert (·.tokenDigest == ·.tokenDigest) refresh
  return { s with accessTokens, refreshTokens }

def exchangedOf (code : AuthorizationCodeRecord) (input : ConsumeInput) : Exchanged where
  code := code
  accessToken :=
    ⟨input.accessTokenId, input.accessTokenDigest, code.clientId, code.userId, code.workspaceId,
      code.resource, code.scope, input.nowMs, input.accessTokenExpiresAtMs, none⟩
  refreshToken :=
    ⟨input.refreshTokenId, input.refreshTokenDigest, input.refreshTokenFamilyId, code.clientId,
      code.userId, code.workspaceId, code.resource, code.scope, input.nowMs,
      input.refreshTokenExpiresAtMs, none, none⟩

/-- `WHERE id = ? AND consumed_at_ms IS NULL` of a code. -/
def isUnspent (id : String) (c : AuthorizationCodeRecord) : Bool := c.id = id && c.consumedAtMs.isNone

def consumeCodeAndIssueTokens (sha256Base64Url : String → String) (input : ConsumeInput) :
    Tx (Except GrantError Exchanged) := fun s =>
  match s.codes.items.find? (·.codeDigest = input.codeDigest) with
  | none => .ok (.error .invalidGrant, s)
  | some code =>
    if code.consumedAtMs.isSome ∨ code.expiresAtMs ≤ input.nowMs then .ok (.error .invalidGrant, s)
    else if code.clientId ≠ input.clientId ∨ code.redirectUri ≠ input.redirectUri then
      .ok (.error .invalidGrant, s)
    else if code.resource ≠ input.resource then .ok (.error .invalidTarget, s)
    else if sha256Base64Url input.codeVerifier ≠ code.codeChallenge then .ok (.error .invalidGrant, s)
    else if s.codes.items.countP (isUnspent code.id) ≠ 1 then .ok (.error .invalidGrant, s)
    else
      let codes := s.codes.update (isUnspent code.id)
        (fun c => { c with consumedAtMs := some input.nowMs }) fun _ => rfl
      let out := exchangedOf code input
      match { s with codes }.issue out.accessToken out.refreshToken with
      | none => .error .unavailable
      | some s' => .ok (.ok out, s')

def findRefreshTokenByDigest (tokenDigest : String) (s : OAuthStore) : Option RefreshTokenRecord :=
  s.refreshTokens.items.find? (·.tokenDigest = tokenDigest)

def rotatedOf (old : RefreshTokenRecord) (input : RotateInput) : Rotated where
  oldRefreshToken := old
  accessToken :=
    ⟨input.accessTokenId, input.accessTokenDigest, old.clientId, old.userId, old.workspaceId,
      old.resource, input.newScope, input.nowMs, input.accessTokenExpiresAtMs, none⟩
  newRefreshToken :=
    ⟨input.newRefreshTokenId, input.newRefreshTokenDigest, old.familyId, old.clientId, old.userId,
      old.workspaceId, old.resource, input.newScope, input.nowMs, input.newRefreshTokenExpiresAtMs,
      none, none⟩

/-- `WHERE id = ? AND consumed_at_ms IS NULL` of a refresh token. -/
def isUnconsumed (id : String) (t : RefreshTokenRecord) : Bool := t.id = id && t.consumedAtMs.isNone

def rotateRefreshTokenAndIssueTokens (input : RotateInput) : Tx (Except GrantError Rotated) := fun s =>
  match s.findRefreshTokenByDigest input.oldTokenDigest with
  | none => .ok (.error .invalidGrant, s)
  | some old =>
    if old.consumedAtMs.isSome ∨ old.revokedAtMs.isSome ∨ old.expiresAtMs ≤ input.nowMs then
      .ok (.error .invalidGrant, s)
    else if old.clientId ≠ input.clientId then .ok (.error .invalidGrant, s)
    else if old.resource ≠ input.resource then .ok (.error .invalidTarget, s)
    else if s.refreshTokens.items.countP (isUnconsumed old.id) ≠ 1 then .ok (.error .invalidGrant, s)
    else
      let refreshTokens := s.refreshTokens.update (isUnconsumed old.id)
        (fun t => { t with consumedAtMs := some input.nowMs }) fun _ => rfl
      let out := rotatedOf old input
      match { s with refreshTokens }.issue out.accessToken out.newRefreshToken with
      | none => .error .unavailable
      | some s' => .ok (.ok out, s')

def revokeRefreshTokenFamily (familyId : String) (nowMs : Int) : Tx Unit := fun s =>
  .ok ((), { s with
    refreshTokens := s.refreshTokens.update (fun t => t.familyId = familyId && t.revokedAtMs.isNone)
      (fun t => { t with revokedAtMs := some nowMs }) fun _ => rfl })

end OAuthStore

end Ceo.OAuth
