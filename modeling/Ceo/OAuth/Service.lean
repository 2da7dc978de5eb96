import Ceo.Lib.Server
import Ceo.Jobs.Contract
import Ceo.OAuth.Store
import Mathlib.Data.List.DropRight

/-!
# The OAuth service

The methods of `OAuthService` (`oauth/service.ts`) as programs: a transaction
of the store, a question to the identity database, the client resolver, the
clock and each random value is a call, so that any number of requests, of any
number of server processes, run at once over one database file.
-/

namespace Ceo.OAuth

open Ceo.Lib
open Ceo.Jobs (isJsSpace)

/-! ### scopes -/

/-- `s.trim()` -/
def trim (s : String) : String :=
  String.ofList ((s.toList.dropWhile isJsSpace).rdropWhile isJsSpace)

/-- `s.split(/\s+/)`: a run of spaces is one separator, also at the ends. -/
def splitSpaces (s : String) : List String :=
  match s.toList.splitOnP isJsSpace with
  | [] => []
  | p :: ps => (p :: (ps.dropLast.filter (· ≠ []) ++ ps.getLast?.toList)).map String.ofList

/-- `s.split(/\s+/).filter(Boolean)` -/
def scopes (s : String) : List String := (splitSpaces s).filter (· ≠ "")

def allowedScopes : List String := ["mcp", "offline_access"]

/-! ### what the service is given -/

/-- A URL as the platform's parser takes it apart. -/
structure Url where
  origin : String
  pathname : String
  search : String
  hash : String
  username : String
  password : String

structure ClientMetadata where
  clientName : String
  redirectUris : List String
  deriving DecidableEq, Repr

/-- `OAuthClientResolutionError` -/
structure ClientResolutionError where
  errorCode : String
  message : String
  deriving DecidableEq, Repr

structure OAuthService where
  canonicalResource : String
  authCodeTtlMs : Int
  authRequestTtlMs : Int
  accessTokenTtlMs : Int
  refreshTokenTtlMs : Int
  sha256Hex : String → String
  sha256Base64Url : String → String
  /-- `new URL(uri)`, unless it throws -/
  parseUrl : String → Option Url

inductive Ask where
  | dateNow
  | randomBytes
  | randomUUID
  | resolveClient (clientId : String)
  | isUserActive (userId : String)
  | hasWorkspaceAccess (workspaceId userId : String)
  | listWorkspaceMembershipsForUser (userId : String)
  | isWorkspaceReadyForHost (workspaceId : String)
  | createAuthorizationRequest (record : AuthorizationRequestRecord)
  | getAuthorizationRequest (id : String)
  | setConsentNonceDigest (id nonceDigest : String) (nowMs : Int)
  | approveConsentAndIssueCode (input : ApproveInput)
  | denyConsent (requestId nonceDigest : String) (nowMs : Int)
  | consumeCodeAndIssueTokens (input : ConsumeInput)
  | findRefreshTokenByDigest (tokenDigest : String)
  | rotateRefreshTokenAndIssueTokens (input : RotateInput)
  | revokeRefreshTokenFamily (familyId : String) (nowMs : Int)
  | findAccessTokenByDigest (tokenDigest : String)

/-- The identity database cannot be read. -/
inductive IdentityError where
  | unavailable
  deriving DecidableEq, Repr

def Ask.Answer : Ask → Type
  | .dateNow => Int
  | .randomBytes | .randomUUID => String
  | .resolveClient _ => Except ClientResolutionError ClientMetadata
  | .isUserActive _ | .hasWorkspaceAccess _ _ | .isWorkspaceReadyForHost _ =>
    Except IdentityError Bool
  | .listWorkspaceMembershipsForUser _ => Except IdentityError (List String)
  | .createAuthorizationRequest _ => Except StoreError Unit
  | .getAuthorizationRequest _ => Except StoreError (Option AuthorizationRequestRecord)
  | .setConsentNonceDigest _ _ _ | .denyConsent _ _ _ => Except StoreError Bool
  | .approveConsentAndIssueCode _ => Except StoreError (Option AuthorizationCodeRecord)
  | .consumeCodeAndIssueTokens _ => Except StoreError (Except GrantError Exchanged)
  | .findRefreshTokenByDigest _ => Except StoreError (Option RefreshTokenRecord)
  | .rotateRefreshTokenAndIssueTokens _ => Except StoreError (Except GrantError Rotated)
  | .revokeRefreshTokenFamily _ _ => Except StoreError Unit
  | .findAccessTokenByDigest _ => Except StoreError (Option AccessTokenRecord)

structure OAuthServerError where
  errorCode : String
  errorDescription : String
  statusCode : Nat
  deriving DecidableEq, Repr

/-- What a method can throw. -/
inductive ServiceError where
  | oauth (e : OAuthServerError)
  | store (e : StoreError)
  | identity (e : IdentityError)
  /-- The `TypeError` of `new URL`, for the service's own resource. -/
  | invalidUrl
  deriving DecidableEq, Repr

structure TokenResponse where
  accessToken : String
  expiresIn : Int
  refreshToken : String
  scope : String
  deriving DecidableEq, Repr

inductive TokenError where
  | invalidToken | insufficientScope | invalidTarget
  deriving DecidableEq, Repr

/-- The answer of `validateAccessToken`. -/
inductive Validation where
  | valid (userId workspaceId scope resource : String)
  | invalid (error : TokenError) (description : String)
  deriving DecidableEq, Repr

inductive Reply where
  | initiated (request : AuthorizationRequestRecord) (metadata : ClientMetadata)
  | nonce (nonce : String)
  | approved (code redirectUri : String) (state : Option String)
  | denied (redirectUri : String) (state : Option String)
  | tokens (r : TokenResponse)
  | validation (v : Validation)
  deriving DecidableEq, Repr

abbrev Method := Program Ask Ask.Answer (Except ServiceError Reply)

structure InitiateInput where
  clientId : String
  redirectUri : String
  responseType : String
  scope : Option String
  state : Option String
  codeChallenge : String
  codeChallengeMethod : String
  resource : Option String

structure ExchangeInput where
  clientId : String
  redirectUri : String
  code : String
  codeVerifier : String
  resource : Option String

structure RefreshInput where
  clientId : String
  refreshToken : String
  scope : Option String
  resource : Option String

def oauthError (errorCode description : String) (statusCode : Nat) : ServiceError :=
  .oauth ⟨errorCode, description, statusCode⟩

def fail (errorCode description : String) (statusCode : Nat) : Method :=
  .done (.error (oauthError errorCode description statusCode))

/-- The text without its dashes. -/
def withoutDashes (s : String) : String := String.ofList (s.toList.filter (· ≠ '-'))

namespace OAuthService

variable (S : OAuthService)

def validateCanonicalResource (uri : Option String) (canonicalResource : String) :
    Except ServiceError String :=
  match uri with
  | none => .error (oauthError "invalid_target" "Resource parameter is required" 400)
  | some uri =>
    if trim uri = "" then .error (oauthError "invalid_target" "Resource parameter is required" 400)
    else
      match S.parseUrl uri with
      | none => .error (oauthError "invalid_target" ("Invalid resource URL: '" ++ uri ++ "'") 400)
      | some parsed =>
        if parsed.search ≠ "" then
          .error (oauthError "invalid_target" "Resource URL must not contain query parameters" 400)
        else if parsed.hash ≠ "" then
          .error (oauthError "invalid_target" "Resource URL must not contain fragments" 400)
        else if parsed.username ≠ "" ∨ parsed.password ≠ "" then
          .error (oauthError "invalid_target" "Resource URL must not contain credentials" 400)
        else
          match S.parseUrl canonicalResource with
          | none => .error .invalidUrl
          | some canonical =>
            if parsed.origin ≠ canonical.origin ∨ parsed.pathname ≠ canonical.pathname then
              .error (oauthError "invalid_target" ("Requested resource '" ++ uri ++
                "' does not match canonical resource '" ++ canonicalResource ++ "'") 400)
            else .ok canonicalResource

/-! ### the authorization request -/

/-- The scope a request is stored with. -/
def requestedScope (scope : Option String) : Except ServiceError String :=
  let rawScope := match scope with
    | none => "mcp"
    | some s => if s = "" then "mcp" else trim s
  let requestedTokens := scopes rawScope
  match requestedTokens.find? (· ∉ allowedScopes) with
  | some t => .error (oauthError "invalid_scope" ("Unsupported scope: " ++ t) 400)
  | none =>
    if "mcp" ∉ requestedTokens then
      .error (oauthError "invalid_scope" "The 'mcp' scope is required" 400)
    else .ok (" ".intercalate requestedTokens)

/-- The request is stored and read back. -/
def storeRequest (q : InitiateInput) (metadata : ClientMetadata) (targetResource finalScope : String) :
    Method :=
  .call .dateNow fun (now : Int) =>
  .call .randomUUID fun (uuid : String) =>
    let requestId := "oar_" ++ withoutDashes uuid
    .call (.createAuthorizationRequest
      { id := requestId
        clientId := q.clientId
        clientName := metadata.clientName
        redirectUri := q.redirectUri
        resource := targetResource
        scope := finalScope
        state := q.state
        codeChallenge := q.codeChallenge
        codeChallengeMethod := q.codeChallengeMethod
        createdAtMs := now
        expiresAtMs := now + S.authRequestTtlMs
        decision := none
        userId := none
        workspaceId := none
        consentNonceDigest := none }) fun
    | .error e => .done (.error (.store e))
    | .ok () =>
      .call (.getAuthorizationRequest requestId) fun
      | .error e => .done (.error (.store e))
      | .ok none => fail "server_error" "Failed to store authorization request" 500
      | .ok (some request) => .done (.ok (.initiated request metadata))

def initiateAuthorizationRequest (q : InitiateInput) : Method :=
  if q.responseType ≠ "code" then
    fail "unsupported_response_type" "Only response_type=code is supported" 400
  else if q.codeChallenge = "" ∨ q.codeChallengeMethod ≠ "S256" then
    fail "invalid_request" "code_challenge is required and code_challenge_method must be S256" 400
  else
    match S.validateCanonicalResource q.resource S.canonicalResource with
    | .error e => .done (.error e)
    | .ok targetResource =>
      .call (.resolveClient q.clientId) fun
      | .error e =>
        if e.errorCode = "unavailable" then fail "server_error" e.message 503
        else fail "invalid_client" ("Failed to resolve client metadata: " ++ e.message) 400
      | .ok metadata =>
        if q.redirectUri ∉ metadata.redirectUris then
          fail "invalid_request" "redirect_uri is not registered in client metadata" 400
        else
          match requestedScope q.scope with
          | .error e => .done (.error e)
          | .ok finalScope => S.storeRequest q metadata targetResource finalScope

/-! ### consent -/

def createConsentNonce (requestId : String) : Method :=
  .call .randomBytes fun (nonce : String) =>
  .call .dateNow fun (now : Int) =>
  .call (.setConsentNonceDigest requestId (S.sha256Hex nonce) now) fun
  | .error e => .done (.error (.store e))
  | .ok false => fail "invalid_request" "Authorization request expired or already decided" 400
  | .ok true => .done (.ok (.nonce nonce))

/-- The approval of a user with one workspace that is ready. -/
def approveFor (requestId nonce userId workspaceId : String) : Method :=
  .call .dateNow fun (now : Int) =>
  .call .randomBytes fun (bytes : String) =>
    let rawCode := "oac_" ++ bytes
    .call .randomUUID fun (uuid : String) =>
    .call (.approveConsentAndIssueCode
      { requestId := requestId
        nonceDigest := S.sha256Hex nonce
        userId := userId
        workspaceId := workspaceId
        codeId := "cd_" ++ withoutDashes uuid
        codeDigest := S.sha256Hex rawCode
        nowMs := now
        codeExpiresAtMs := now + S.authCodeTtlMs }) fun
    | .error e => .done (.error (.store e))
    | .ok none =>
      fail "invalid_request"
        "Failed to approve consent: invalid nonce or request expired/already decided" 400
    | .ok (some record) =>
      .call (.getAuthorizationRequest requestId) fun
      | .error e => .done (.error (.store e))
      | .ok authReq =>
        .done (.ok (.approved rawCode record.redirectUri (authReq.bind (·.state))))

def approveConsent (requestId nonce userId : String) : Method :=
  .call (.isUserActive userId) fun
  | .error e => .done (.error (.identity e))
  | .ok false => fail "access_denied" "User is disabled or inactive" 403
  | .ok true =>
    .call (.listWorkspaceMembershipsForUser userId) fun
    | .error e => .done (.error (.identity e))
    | .ok [] => fail "access_denied" "User has no accessible workspaces" 403
    | .ok (_ :: _ :: _) => fail "access_denied" "Workspace selection required" 403
    | .ok [workspaceId] =>
      .call (.isWorkspaceReadyForHost workspaceId) fun
      | .error e => .done (.error (.identity e))
      | .ok false => fail "access_denied" "Workspace is not ready for access" 403
      | .ok true => S.approveFor requestId nonce userId workspaceId

def denyConsent (requestId nonce : String) : Method :=
  .call (.getAuthorizationRequest requestId) fun
  | .error e => .done (.error (.store e))
  | .ok none => fail "invalid_request" "Authorization request not found" 400
  | .ok (some authReq) =>
    .call .dateNow fun (now : Int) =>
    .call (.denyConsent requestId (S.sha256Hex nonce) now) fun
    | .error e => .done (.error (.store e))
    | .ok false => fail "invalid_request" "Invalid nonce or request already decided" 400
    | .ok true => .done (.ok (.denied authReq.redirectUri authReq.state))

/-! ### tokens -/

def exchangeAuthorizationCode (q : ExchangeInput) : Method :=
  if q.code = "" ∨ q.codeVerifier = "" ∨ q.clientId = "" ∨ q.redirectUri = "" then
    fail "invalid_request" "code, code_verifier, client_id, and redirect_uri are required" 400
  else
    match S.validateCanonicalResource q.resource S.canonicalResource with
    | .error e => .done (.error e)
    | .ok targetResource =>
      .call .dateNow fun (now : Int) =>
      .call .randomBytes fun (accessBytes : String) =>
      .call .randomUUID fun (accessUuid : String) =>
      .call .randomBytes fun (refreshBytes : String) =>
      .call .randomUUID fun (refreshUuid : String) =>
      .call .randomUUID fun (familyUuid : String) =>
        let rawAccessToken := "ceo_at_" ++ accessBytes
        let rawRefreshToken := "ceo_rt_" ++ refreshBytes
        .call (.consumeCodeAndIssueTokens
          { codeDigest := S.sha256Hex q.code
            clientId := q.clientId
            redirectUri := q.redirectUri
            resource := targetResource
            codeVerifier := q.codeVerifier
            accessTokenId := "at_" ++ withoutDashes accessUuid
            accessTokenDigest := S.sha256Hex rawAccessToken
            accessTokenExpiresAtMs := now + S.accessTokenTtlMs
            refreshTokenId := "rt_" ++ withoutDashes refreshUuid
            refreshTokenDigest := S.sha256Hex rawRefreshToken
            refreshTokenFamilyId := "fam_" ++ withoutDashes familyUuid
            refreshTokenExpiresAtMs := now + S.refreshTokenTtlMs
            nowMs := now }) fun
        | .error e => .done (.error (.store e))
        | .ok (.error .invalidTarget) =>
          fail "invalid_target" "Resource does not match granted resource" 400
        | .ok (.error .invalidGrant) =>
          fail "invalid_grant" "Invalid or expired authorization code" 400
        | .ok (.ok result) =>
          .done (.ok (.tokens
            ⟨rawAccessToken, S.accessTokenTtlMs / 1000, rawRefreshToken, result.code.scope⟩))

/-- `newScope`: the requested scopes when the old token has them all. -/
def narrowedScope (existing : RefreshTokenRecord) (scope : Option String) :
    Except ServiceError String :=
  match scope with
  | none => .ok existing.scope
  | some scope =>
    if scope = "" then .ok existing.scope
    else
      let requested := scopes (trim scope)
      match requested.find? (· ∉ splitSpaces existing.scope) with
      | some s => .error (oauthError "invalid_scope" ("Cannot expand scope to: " ++ s) 400)
      | none => .ok (" ".intercalate requested)

def rotate (q : RefreshInput) (targetResource newScope : String) (now : Int) : Method :=
  .call .randomBytes fun (accessBytes : String) =>
  .call .randomUUID fun (accessUuid : String) =>
  .call .randomBytes fun (refreshBytes : String) =>
  .call .randomUUID fun (refreshUuid : String) =>
    let rawAccessToken := "ceo_at_" ++ accessBytes
    let newRefreshToken := "ceo_rt_" ++ refreshBytes
    .call (.rotateRefreshTokenAndIssueTokens
      { oldTokenDigest := S.sha256Hex q.refreshToken
        clientId := q.clientId
        resource := targetResource
        newScope := newScope
        accessTokenId := "at_" ++ withoutDashes accessUuid
        accessTokenDigest := S.sha256Hex rawAccessToken
        accessTokenExpiresAtMs := now + S.accessTokenTtlMs
        newRefreshTokenId := "rt_" ++ withoutDashes refreshUuid
        newRefreshTokenDigest := S.sha256Hex newRefreshToken
        newRefreshTokenExpiresAtMs := now + S.refreshTokenTtlMs
        nowMs := now }) fun
    | .error e => .done (.error (.store e))
    | .ok (.error .invalidTarget) => fail "invalid_target" "Resource mismatch" 400
    | .ok (.error .invalidGrant) => fail "invalid_grant" "Failed to rotate refresh token" 400
    | .ok (.ok _) =>
      .done (.ok (.tokens ⟨rawAccessToken, S.accessTokenTtlMs / 1000, newRefreshToken, newScope⟩))

def replayDetected : ServiceError :=
  oauthError "invalid_grant" "Refresh token already consumed (replay detected)" 400

def noLongerActive : ServiceError :=
  oauthError "invalid_grant" "User or workspace is no longer active" 400

/-- The family is revoked, then the error is thrown. -/
def revokeThenFail (familyId : String) (now : Int) (e : ServiceError) : Method :=
  .call (.revokeRefreshTokenFamily familyId now) fun
  | .error e => .done (.error (.store e))
  | .ok () => .done (.error e)

/-- What `refreshTokens` does with the token it has found. -/
def refreshFound (q : RefreshInput) (now : Int) (existing : RefreshTokenRecord) : Method :=
  if existing.consumedAtMs.isSome then revokeThenFail existing.familyId now replayDetected
  else if existing.revokedAtMs.isSome ∨ existing.expiresAtMs ≤ now then
    fail "invalid_grant" "Refresh token expired or revoked" 400
  else if existing.clientId ≠ q.clientId then fail "invalid_grant" "Client ID mismatch" 400
  else
    match S.validateCanonicalResource q.resource existing.resource with
    | .error e => .done (.error e)
    | .ok targetResource =>
      .call (.isUserActive existing.userId) fun
      | .error e => .done (.error (.identity e))
      | .ok userActive =>
        .call (.hasWorkspaceAccess existing.workspaceId existing.userId) fun
        | .error e => .done (.error (.identity e))
        | .ok workspaceValid =>
          if userActive = false ∨ workspaceValid = false then
            revokeThenFail existing.familyId now noLongerActive
          else
            match narrowedScope existing q.scope with
            | .error e => .done (.error e)
            | .ok newScope => S.rotate q targetResource newScope now

def refreshTokens (q : RefreshInput) : Method :=
  if q.refreshToken = "" ∨ q.clientId = "" then
    fail "invalid_request" "refresh_token and client_id are required" 400
  else
    .call (.findRefreshTokenByDigest (S.sha256Hex q.refreshToken)) fun
    | .error e => .done (.error (.store e))
    | .ok existing =>
      .call .dateNow fun (now : Int) =>
        match existing with
        | none => fail "invalid_grant" "Refresh token not found" 400
        | some existing => S.refreshFound q now existing

def invalid (error : TokenError) (description : String) : Method :=
  .done (.ok (.validation (.invalid error description)))

/-- What `validateAccessToken` does with the token it has found. -/
def validateFound (now : Int) (record : AccessTokenRecord) : Method :=
  if record.revokedAtMs.isSome then invalid .invalidToken "Token has been revoked"
  else if record.expiresAtMs ≤ now then invalid .invalidToken "Token has expired"
  else if record.resource ≠ S.canonicalResource then
    invalid .invalidTarget "Token resource mismatch"
  else if "mcp" ∉ splitSpaces record.scope then
    invalid .insufficientScope "Token does not have mcp scope"
  else
    .call (.isUserActive record.userId) fun
    | .error e => .done (.error (.identity e))
    | .ok false => invalid .invalidToken "User is disabled or inactive"
    | .ok true =>
      .call (.hasWorkspaceAccess record.workspaceId record.userId) fun
      | .error e => .done (.error (.identity e))
      | .ok false => invalid .invalidToken "Workspace access denied"
      | .ok true =>
        .done (.ok (.validation
          (.valid record.userId record.workspaceId record.scope record.resource)))

def validateAccessToken (token : String) : Method :=
  .call (.findAccessTokenByDigest (S.sha256Hex token)) fun
  | .error e => .done (.error (.store e))
  | .ok record =>
    .call .dateNow fun (now : Int) =>
      match record with
      | none => invalid .invalidToken "Token not found"
      | some record => S.validateFound now record

end OAuthService

/-! ### the server -/

inductive Request where
  | initiate (q : InitiateInput)
  | createConsentNonce (requestId : String)
  | approveConsent (requestId nonce userId : String)
  | denyConsent (requestId nonce : String)
  | exchange (q : ExchangeInput)
  | refresh (q : RefreshInput)
  | validate (token : String)

def OAuthService.method (S : OAuthService) : Request → Method
  | .initiate q => S.initiateAuthorizationRequest q
  | .createConsentNonce requestId => S.createConsentNonce requestId
  | .approveConsent requestId nonce userId => S.approveConsent requestId nonce userId
  | .denyConsent requestId nonce => S.denyConsent requestId nonce
  | .exchange q => S.exchangeAuthorizationCode q
  | .refresh q => S.refreshTokens q
  | .validate token => S.validateAccessToken token

/-- A grant that a transaction has made. -/
inductive Grant where
  | code (requestId codeId : String)
  | family (codeId familyId : String)
  | rotation (oldTokenId newTokenId : String)
  deriving DecidableEq, Repr

/-- The database, and the grants its transactions have made, which nothing reads. -/
structure Grants where
  store : OAuthStore
  granted : List Grant

def Grants.empty : Grants := ⟨.empty, []⟩

/-- What is chosen outside a method. -/
inductive Choice where
  /-- The transaction goes through. -/
  | commit
  /-- The database is locked or fails: the transaction is rolled back and throws. -/
  | busy
  | ms (t : Int)
  | random (s : String)
  | client (r : Except ClientResolutionError ClientMetadata)
  | identity (b : Except IdentityError Bool)
  | memberships (l : Except IdentityError (List String))

/-- A transaction, and what it grants. -/
def Grants.transact {α : Type} (s : Grants) (tx : Tx α) (granted : α → List Grant) :
    Choice → Option (Except StoreError α × Grants)
  | .commit =>
    match tx s.store with
    | .error e => some (.error e, s)
    | .ok (a, store) => some (.ok a, ⟨store, s.granted ++ granted a⟩)
  | .busy => some (.error .unavailable, s)
  | _ => none

def grantsNothing {α : Type} : α → List Grant := fun _ => []

namespace OAuthService

def serve (S : OAuthService) (s : Grants) : (e : Ask) → Choice → Option (e.Answer × Grants)
  | .dateNow, .ms t => some (t, s)
  | .randomBytes, .random x | .randomUUID, .random x => some (x, s)
  | .resolveClient _, .client r => some (r, s)
  | .isUserActive _, .identity b | .hasWorkspaceAccess _ _, .identity b
  | .isWorkspaceReadyForHost _, .identity b => some (b, s)
  | .listWorkspaceMembershipsForUser _, .memberships l => some (l, s)
  | .createAuthorizationRequest record, x =>
    s.transact (OAuthStore.createAuthorizationRequest record) grantsNothing x
  | .getAuthorizationRequest id, x =>
    s.transact (OAuthStore.getAuthorizationRequest id) grantsNothing x
  | .setConsentNonceDigest id nonceDigest nowMs, x =>
    s.transact (OAuthStore.setConsentNonceDigest id nonceDigest nowMs) grantsNothing x
  | .approveConsentAndIssueCode input, x =>
    s.transact (OAuthStore.approveConsentAndIssueCode input)
      (fun code => code.toList.map fun c => .code input.requestId c.id) x
  | .denyConsent requestId nonceDigest nowMs, x =>
    s.transact (OAuthStore.denyConsent requestId nonceDigest nowMs) grantsNothing x
  | .consumeCodeAndIssueTokens input, x =>
    s.transact (OAuthStore.consumeCodeAndIssueTokens S.sha256Base64Url input)
      (fun r => r.toOption.toList.map fun out => .family out.code.id out.refreshToken.familyId) x
  | .findRefreshTokenByDigest tokenDigest, x =>
    s.transact (fun store => .ok (store.findRefreshTokenByDigest tokenDigest, store)) grantsNothing x
  | .rotateRefreshTokenAndIssueTokens input, x =>
    s.transact (OAuthStore.rotateRefreshTokenAndIssueTokens input)
      (fun r => r.toOption.toList.map fun out =>
        .rotation out.oldRefreshToken.id out.newRefreshToken.id) x
  | .revokeRefreshTokenFamily familyId nowMs, x =>
    s.transact (OAuthStore.revokeRefreshTokenFamily familyId nowMs) grantsNothing x
  | .findAccessTokenByDigest tokenDigest, x =>
    s.transact (fun store =>
      .ok (store.accessTokens.items.find? (·.tokenDigest = tokenDigest), store)) grantsNothing x
  | _, _ => none

/-- The service over one database; an answer stands with its request. What others do to the
database between two calls of a request is a call of another request. -/
def server (S : OAuthService) : Server Grants Ask Ask.Answer Choice (Ask × Choice) Request
    (Request × Except ServiceError Reply) where
  serve := S.serve
  lose s _ := s
  stop s := s
  surround s a := (S.serve s a.1 a.2).map (·.2)
  Init := (· = .empty)
  handle q := S.method q >>= fun r => .done (q, r)

end OAuthService

/-- The family id drawn for an exchange is not in the table: 122 random bits. -/
def freshFamily (s : Grants) : Ask → Prop
  | .consumeCodeAndIssueTokens input =>
    ∀ t ∈ s.store.refreshTokens.items, t.familyId ≠ input.refreshTokenFamilyId
  | _ => True

instance (s : Grants) : (e : Ask) → Decidable (freshFamily s e)
  | .consumeCodeAndIssueTokens input =>
    inferInstanceAs
      (Decidable (∀ t ∈ s.store.refreshTokens.items, t.familyId ≠ input.refreshTokenFamilyId))
  | .dateNow | .randomBytes | .randomUUID | .resolveClient _ | .isUserActive _
  | .hasWorkspaceAccess _ _ | .listWorkspaceMembershipsForUser _ | .isWorkspaceReadyForHost _
  | .createAuthorizationRequest _ | .getAuthorizationRequest _ | .setConsentNonceDigest _ _ _
  | .approveConsentAndIssueCode _ | .denyConsent _ _ _ | .findRefreshTokenByDigest _
  | .rotateRefreshTokenAndIssueTokens _ | .revokeRefreshTokenFamily _ _
  | .findAccessTokenByDigest _ => .isTrue trivial

/-- Every request answers in its own time, and what is drawn meets `drawn`. -/
def drawing (drawn : Grants → Ask → Prop) : Policy Grants Ask Choice (Ask × Choice) :=
  ⟨fun s e _ => drawn s e, fun _ _ => True, fun _ => True, fun _ _ => False⟩

section

variable {drawn : Grants → Ask → Prop}

instance [∀ s e, Decidable (drawn s e)] (s : Grants) (e : Ask) (x : Choice) :
    Decidable ((drawing drawn).reply s e x) :=
  inferInstanceAs (Decidable (drawn s e))

instance (s : Grants) (a : Ask × Choice) : Decidable ((drawing drawn).surround s a) :=
  .isFalse id

end

end Ceo.OAuth
