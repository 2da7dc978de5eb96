import Ceo.OAuth.Service

/-!
# The chain of grants

A request is approved once and yields one code, a code one family of tokens, a
refresh token one rotation: `Change` says what each call can do to the store,
and every invariant here is derived from it. The service decides on a token it
has read before the transaction that rotates it; what it needs of that token
is in `needs`, and no other request takes it away.
-/

namespace Ceo.OAuth

open Ceo.Lib
open AuthorizationRequestRecord (isPending)
open OAuthStore (codeOf exchangedOf rotatedOf isUndecided isUnspent isUnconsumed)

/-! ### what a call does to the store -/

/-- The refresh tokens when one has been consumed. -/
def OAuthStore.consumed (s : OAuthStore) (tokenId : String) (nowMs : Int) :
    Keyed RefreshTokenRecord.id :=
  s.refreshTokens.update (isUnconsumed tokenId) (fun t => { t with consumedAtMs := some nowMs })
    fun _ => rfl

theorem revoked_id (nowMs : Int) (t : RefreshTokenRecord) :
    ({ t with revokedAtMs := some nowMs } : RefreshTokenRecord).id = t.id := rfl

/-- The refresh tokens when a family has been revoked. -/
def OAuthStore.revoked (s : OAuthStore) (familyId : String) (nowMs : Int) :
    Keyed RefreshTokenRecord.id :=
  s.refreshTokens.update (fun t => t.familyId = familyId && t.revokedAtMs.isNone)
    (fun t => { t with revokedAtMs := some nowMs }) (revoked_id nowMs)

section change

variable (S : OAuthService) (s : Grants)

inductive Change : Ask → Grants → Prop where
  | idle (e : Ask) : Change e s
  | requested {record : AuthorizationRequestRecord} {requests : Keyed AuthorizationRequestRecord.id}
      (insert : s.store.requests.insert (fun _ _ => false)
        { record with
          decision := none, userId := none, workspaceId := none, consentNonceDigest := none } =
        some requests) :
      Change (.createAuthorizationRequest record) { s with store := { s.store with requests } }
  | nonce {id nonceDigest : String} {nowMs : Int} :
      Change (.setConsentNonceDigest id nonceDigest nowMs)
        { s with store := { s.store with
          requests := s.store.requests.update (isPending · id nowMs)
            (fun r => { r with consentNonceDigest := some nonceDigest }) fun _ => rfl } }
  | approved {input : ApproveInput} {req : AuthorizationRequestRecord}
      {codes : Keyed AuthorizationCodeRecord.id} (mem : req ∈ s.store.requests.items)
      (own : req.id = input.requestId) (undecided : req.decision = none)
      (insert : s.store.codes.insert (·.codeDigest == ·.codeDigest) (codeOf req input) = some codes) :
      Change (.approveConsentAndIssueCode input)
        ⟨{ s.store with
            requests := s.store.requests.update (isUndecided input.requestId)
              (fun r => { r with
                decision := some .approved, userId := some input.userId,
                workspaceId := some input.workspaceId }) fun _ => rfl
            codes },
          s.granted ++ [.code input.requestId input.codeId]⟩
  | denied {id nonceDigest : String} {nowMs : Int} :
      Change (.denyConsent id nonceDigest nowMs)
        { s with store := { s.store with
          requests := s.store.requests.update (isUndecided id)
            (fun r => { r with decision := some .denied }) fun _ => rfl } }
  | exchanged {input : ConsumeInput} {code : AuthorizationCodeRecord} {store : OAuthStore}
      (mem : code ∈ s.store.codes.items) (unspent : code.consumedAtMs = none)
      (issue : { s.store with
        codes := s.store.codes.update (isUnspent code.id)
          (fun c => { c with consumedAtMs := some input.nowMs }) fun _ => rfl }.issue
        (exchangedOf code input).accessToken (exchangedOf code input).refreshToken = some store) :
      Change (.consumeCodeAndIssueTokens input)
        ⟨store, s.granted ++ [.family code.id input.refreshTokenFamilyId]⟩
  | rotated {input : RotateInput} {old : RefreshTokenRecord} {store : OAuthStore}
      (mem : old ∈ s.store.refreshTokens.items) (digest : old.tokenDigest = input.oldTokenDigest)
      (unconsumed : old.consumedAtMs = none) (unrevoked : old.revokedAtMs = none)
      (issue : { s.store with refreshTokens := s.store.consumed old.id input.nowMs }.issue
        (rotatedOf old input).accessToken (rotatedOf old input).newRefreshToken = some store) :
      Change (.rotateRefreshTokenAndIssueTokens input)
        ⟨store, s.granted ++ [.rotation old.id input.newRefreshTokenId]⟩
  | revoked {familyId : String} {nowMs : Int} :
      Change (.revokeRefreshTokenFamily familyId nowMs)
        { s with store := { s.store with refreshTokens := s.store.revoked familyId nowMs } }

end change

section transactions

variable {S : OAuthService} {s t : Grants}

/-- Both tables of tokens with one row more. -/
theorem issue_eq_some {store store' : OAuthStore} {access : AccessTokenRecord}
    {refresh : RefreshTokenRecord} (h : store.issue access refresh = some store') :
    store'.requests = store.requests ∧ store'.codes = store.codes ∧
      store.accessTokens.insert (·.tokenDigest == ·.tokenDigest) access = some store'.accessTokens ∧
      store.refreshTokens.insert (·.tokenDigest == ·.tokenDigest) refresh =
        some store'.refreshTokens := by
  unfold OAuthStore.issue at h
  obtain ⟨accessTokens, ha, h⟩ := Option.bind_eq_some_iff.1 h
  obtain ⟨refreshTokens, hr, h⟩ := Option.bind_eq_some_iff.1 h
  cases h
  exact ⟨rfl, rfl, ha, hr⟩

/-- A transaction that goes through is its result and the store after it; else nothing happens. -/
theorem transact_cases {α : Type} {tx : Tx α} {granted : α → List Grant} {x : Choice}
    {r : Except StoreError α} (h : s.transact tx granted x = some (r, t)) :
    (∃ e, r = .error e ∧ t = s) ∨ ∃ a store, tx s.store = .ok (a, store) ∧ r = .ok a ∧
      t = ⟨store, s.granted ++ granted a⟩ := by
  cases x with
  | commit =>
    simp only [Grants.transact] at h
    rcases htx : tx s.store with e | ⟨a, store⟩
    · rw [htx] at h
      cases h
      exact .inl ⟨e, rfl, rfl⟩
    · rw [htx] at h
      cases h
      exact .inr ⟨a, store, rfl, rfl, rfl⟩
  | busy =>
    cases h
    exact .inl ⟨_, rfl, rfl⟩
  | ms | random | client | identity | memberships => cases h

theorem approve_cases {input : ApproveInput} {store store' : OAuthStore}
    {r : Option AuthorizationCodeRecord}
    (h : OAuthStore.approveConsentAndIssueCode input store = .ok (r, store')) :
    (r = none ∧ store' = store) ∨
      ∃ req ∈ store.requests.items, ∃ codes, req.id = input.requestId ∧ req.decision = none ∧
        store.codes.insert (·.codeDigest == ·.codeDigest) (codeOf req input) = some codes ∧
        r = some (codeOf req input) ∧
        store' = { store with
          requests := store.requests.update (isUndecided input.requestId)
            (fun r => { r with
              decision := some .approved, userId := some input.userId,
              workspaceId := some input.workspaceId }) fun _ => rfl
          codes } := by
  unfold OAuthStore.approveConsentAndIssueCode at h
  split at h
  · cases h
    exact .inl ⟨rfl, rfl⟩
  next req hreq =>
  have hp := List.find?_some hreq
  unfold isPending at hp
  simp only [Bool.and_eq_true, decide_eq_true_eq, Option.isNone_iff_eq_none] at hp
  split at h
  · cases h
    exact .inl ⟨rfl, rfl⟩
  unfold OAuthStore.decide at h
  by_cases hone : store.requests.items.countP (isUndecided input.requestId) ≠ 1
  · rw [if_pos hone] at h
    cases h
    exact .inl ⟨rfl, rfl⟩
  rw [if_neg hone] at h
  dsimp only at h
  split at h
  · cases h
  next codes hcodes =>
    cases h
    exact .inr ⟨req, List.mem_of_find?_eq_some hreq, codes, hp.1.1, hp.1.2, hcodes, rfl, rfl⟩

theorem deny_cases {requestId nonceDigest : String} {nowMs : Int} {store store' : OAuthStore}
    {r : Bool} (h : OAuthStore.denyConsent requestId nonceDigest nowMs store = .ok (r, store')) :
    store' = store ∨
      store' = { store with
        requests := store.requests.update (isUndecided requestId)
          (fun r => { r with decision := some .denied }) fun _ => rfl } := by
  unfold OAuthStore.denyConsent OAuthStore.decide at h
  split at h
  · cases h
    exact .inl rfl
  split at h
  · cases h
    exact .inl rfl
  by_cases hone : store.requests.items.countP (isUndecided requestId) ≠ 1
  · rw [if_pos hone] at h
    cases h
    exact .inl rfl
  · rw [if_neg hone] at h
    cases h
    exact .inr rfl

/-- An exchange that goes through: the code was not spent, and the caller is the one it was
issued to. -/
theorem consume_cases {input : ConsumeInput} {store store' : OAuthStore}
    {r : Except GrantError Exchanged}
    (h : OAuthStore.consumeCodeAndIssueTokens S.sha256Base64Url input store = .ok (r, store')) :
    (r.toOption = none ∧ store' = store) ∨
      ∃ code ∈ store.codes.items, code.codeDigest = input.codeDigest ∧ code.consumedAtMs = none ∧
        code.clientId = input.clientId ∧ code.redirectUri = input.redirectUri ∧
        code.resource = input.resource ∧
        S.sha256Base64Url input.codeVerifier = code.codeChallenge ∧
        r = .ok (exchangedOf code input) ∧
        { store with
          codes := store.codes.update (isUnspent code.id)
            (fun c => { c with consumedAtMs := some input.nowMs }) fun _ => rfl }.issue
          (exchangedOf code input).accessToken (exchangedOf code input).refreshToken =
          some store' := by
  unfold OAuthStore.consumeCodeAndIssueTokens at h
  split at h
  · cases h
    exact .inl ⟨rfl, rfl⟩
  next code hcode =>
  split at h
  · cases h
    exact .inl ⟨rfl, rfl⟩
  next hopen =>
  split at h
  · cases h
    exact .inl ⟨rfl, rfl⟩
  next hclient =>
  split at h
  · cases h
    exact .inl ⟨rfl, rfl⟩
  next hres =>
  split at h
  · cases h
    exact .inl ⟨rfl, rfl⟩
  next hpkce =>
  split at h
  · cases h
    exact .inl ⟨rfl, rfl⟩
  dsimp only at h
  split at h
  · cases h
  next store'' hissue =>
    cases h
    obtain ⟨hc, hu⟩ := not_or.1 hclient
    exact .inr ⟨code, List.mem_of_find?_eq_some hcode,
      by simpa using List.find?_some hcode, by simpa using (not_or.1 hopen).1,
      not_not.1 hc, not_not.1 hu, not_not.1 hres, not_not.1 hpkce, rfl, hissue⟩

theorem rotate_cases {input : RotateInput} {store store' : OAuthStore}
    {r : Except GrantError Rotated}
    (h : OAuthStore.rotateRefreshTokenAndIssueTokens input store = .ok (r, store')) :
    (r.toOption = none ∧ store' = store) ∨
      ∃ old ∈ store.refreshTokens.items, old.tokenDigest = input.oldTokenDigest ∧
        old.consumedAtMs = none ∧ old.revokedAtMs = none ∧ r = .ok (rotatedOf old input) ∧
        { store with refreshTokens := store.consumed old.id input.nowMs }.issue
          (rotatedOf old input).accessToken (rotatedOf old input).newRefreshToken =
          some store' := by
  unfold OAuthStore.rotateRefreshTokenAndIssueTokens at h
  split at h
  · cases h
    exact .inl ⟨rfl, rfl⟩
  next old hold =>
  split at h
  · cases h
    exact .inl ⟨rfl, rfl⟩
  next hopen =>
  obtain ⟨hc, hrest⟩ := not_or.1 hopen
  obtain ⟨hr, -⟩ := not_or.1 hrest
  split at h
  · cases h
    exact .inl ⟨rfl, rfl⟩
  split at h
  · cases h
    exact .inl ⟨rfl, rfl⟩
  split at h
  · cases h
    exact .inl ⟨rfl, rfl⟩
  dsimp only at h
  split at h
  · cases h
  next store'' hissue =>
    cases h
    exact .inr ⟨old, List.mem_of_find?_eq_some hold, by simpa using List.find?_some hold,
      by simpa using hc, by simpa using hr, rfl, hissue⟩

theorem serve_change {e : Ask} {x : Choice} {r : e.Answer} (h : S.serve s e x = some (r, t)) :
    Change s e t := by
  cases e with
  | dateNow | randomBytes | randomUUID | resolveClient | isUserActive | hasWorkspaceAccess
  | isWorkspaceReadyForHost | listWorkspaceMembershipsForUser =>
    cases x <;> cases h
    exact .idle _
  | getAuthorizationRequest | findRefreshTokenByDigest | findAccessTokenByDigest =>
    dsimp only [OAuthService.serve] at h
    rcases transact_cases h with ⟨_, -, rfl⟩ | ⟨a, store, htx, -, rfl⟩
    · exact .idle _
    · cases htx
      simpa [grantsNothing] using Change.idle (s := s) _
  | createAuthorizationRequest record =>
    dsimp only [OAuthService.serve] at h
    rcases transact_cases h with ⟨_, -, rfl⟩ | ⟨a, store, htx, -, rfl⟩
    · exact .idle _
    unfold OAuthStore.createAuthorizationRequest at htx
    split at htx
    · cases htx
    next requests hins =>
      cases htx
      simpa [grantsNothing] using Change.requested hins
  | setConsentNonceDigest =>
    dsimp only [OAuthService.serve] at h
    rcases transact_cases h with ⟨_, -, rfl⟩ | ⟨a, store, htx, -, rfl⟩
    · exact .idle _
    · cases htx
      simpa [grantsNothing] using Change.nonce (s := s)
  | approveConsentAndIssueCode input =>
    dsimp only [OAuthService.serve] at h
    rcases transact_cases h with ⟨_, -, rfl⟩ | ⟨a, store, htx, -, rfl⟩
    · exact .idle _
    rcases approve_cases htx with ⟨rfl, rfl⟩ | ⟨req, hmem, codes, hid, hdec, hins, rfl, rfl⟩
    · simpa using Change.idle (s := s) _
    · exact .approved hmem hid hdec hins
  | denyConsent =>
    dsimp only [OAuthService.serve] at h
    rcases transact_cases h with ⟨_, -, rfl⟩ | ⟨a, store, htx, -, rfl⟩
    · exact .idle _
    rcases deny_cases htx with rfl | rfl
    · simpa [grantsNothing] using Change.idle (s := s) _
    · simpa [grantsNothing] using Change.denied (s := s)
  | consumeCodeAndIssueTokens input =>
    dsimp only [OAuthService.serve] at h
    rcases transact_cases h with ⟨_, -, rfl⟩ | ⟨a, store, htx, -, rfl⟩
    · exact .idle _
    rcases consume_cases htx with ⟨hr, rfl⟩ | ⟨code, hmem, -, hopen, -, -, -, -, rfl, hissue⟩
    · simpa [hr] using Change.idle (s := s) _
    · exact .exchanged hmem hopen hissue
  | rotateRefreshTokenAndIssueTokens input =>
    dsimp only [OAuthService.serve] at h
    rcases transact_cases h with ⟨_, -, rfl⟩ | ⟨a, store, htx, -, rfl⟩
    · exact .idle _
    rcases rotate_cases htx with ⟨hr, rfl⟩ | ⟨old, hmem, hdig, hc, hrev, rfl, hissue⟩
    · simpa [hr] using Change.idle (s := s) _
    · exact .rotated hmem hdig hc hrev hissue
  | revokeRefreshTokenFamily =>
    dsimp only [OAuthService.serve] at h
    rcases transact_cases h with ⟨_, -, rfl⟩ | ⟨a, store, htx, -, rfl⟩
    · exact .idle _
    · cases htx
      simp only [grantsNothing, List.append_nil]
      exact .revoked

end transactions

/-! ### where codes and tokens come from -/

/-- The request was approved for these, with at least this scope. -/
structure Approves (r : AuthorizationRequestRecord) (clientId userId workspaceId resource scope : String) :
    Prop where
  decision : r.decision = some .approved
  client : r.clientId = clientId
  user : r.userId = some userId
  workspace : r.workspaceId = some workspaceId
  resource : r.resource = resource
  scope : scopes scope ⊆ scopes r.scope

def CodeFrom (s : Grants) (c : AuthorizationCodeRecord) : Prop :=
  ∃ r ∈ s.store.requests.items, .code r.id c.id ∈ s.granted ∧
    Approves r c.clientId c.userId c.workspaceId c.resource c.scope ∧
    r.redirectUri = c.redirectUri ∧ r.codeChallenge = c.codeChallenge

def AccessFrom (s : Grants) (t : AccessTokenRecord) : Prop :=
  ∃ r ∈ s.store.requests.items, Approves r t.clientId t.userId t.workspaceId t.resource t.scope

/-- The family stems from the code of a request that approves the token. -/
def RefreshFrom (s : Grants) (t : RefreshTokenRecord) : Prop :=
  ∃ r ∈ s.store.requests.items, ∃ codeId, .code r.id codeId ∈ s.granted ∧
    .family codeId t.familyId ∈ s.granted ∧
    Approves r t.clientId t.userId t.workspaceId t.resource t.scope

structure Lineage (s : Grants) : Prop where
  codes : ∀ c ∈ s.store.codes.items, CodeFrom s c
  access : ∀ t ∈ s.store.accessTokens.items, AccessFrom s t
  refresh : ∀ t ∈ s.store.refreshTokens.items, RefreshFrom s t
  digests : ∀ t ∈ s.store.refreshTokens.items, ∀ u ∈ s.store.refreshTokens.items,
    t.tokenDigest = u.tokenDigest → t.id = u.id

/-- Of a token that is rotated, the service has read one with that digest and no smaller scope. -/
def needs (s : Grants) : Ask → Prop
  | .rotateRefreshTokenAndIssueTokens input =>
    ∃ t ∈ s.store.refreshTokens.items, t.tokenDigest = input.oldTokenDigest ∧
      scopes input.newScope ⊆ scopes t.scope
  | _ => True

/-- Approved requests stay as they are, and what was granted stays granted. -/
structure Grows (s t : Grants) : Prop where
  requests : ∀ r ∈ s.store.requests.items, r.decision = some .approved → r ∈ t.store.requests.items
  granted : s.granted ⊆ t.granted

section lineage

variable {S : OAuthService} {s t : Grants} {e : Ask}

theorem Grows.refl (s : Grants) : Grows s s := ⟨fun _ h _ => h, fun _ h => h⟩

theorem CodeFrom.grows (g : Grows s t) {c : AuthorizationCodeRecord} (h : CodeFrom s c) :
    CodeFrom t c := by
  obtain ⟨r, hr, hg, ha, hc⟩ := h
  exact ⟨r, g.requests r hr ha.decision, g.granted hg, ha, hc⟩

theorem AccessFrom.grows (g : Grows s t) {a : AccessTokenRecord} (h : AccessFrom s a) :
    AccessFrom t a := by
  obtain ⟨r, hr, ha⟩ := h
  exact ⟨r, g.requests r hr ha.decision, ha⟩

theorem RefreshFrom.grows (g : Grows s t) {a : RefreshTokenRecord} (h : RefreshFrom s a) :
    RefreshFrom t a := by
  obtain ⟨r, hr, codeId, hc, hf, ha⟩ := h
  exact ⟨r, g.requests r hr ha.decision, codeId, g.granted hc, g.granted hf, ha⟩

/-- An update of undecided requests leaves the approved ones. -/
theorem mem_update_approved {p : AuthorizationRequestRecord → Bool}
    {f : AuthorizationRequestRecord → AuthorizationRequestRecord} (same : ∀ a, (f a).id = a.id)
    (undecided : ∀ r, p r = true → r.decision = none) {requests : Keyed AuthorizationRequestRecord.id}
    {r : AuthorizationRequestRecord} (hr : r ∈ requests.items) (ha : r.decision = some .approved) :
    r ∈ (requests.update p f same).items := by
  have hp : p r = false := by
    refine Bool.eq_false_iff.2 fun h => ?_
    rw [undecided r h] at ha
    cases ha
  exact (Keyed.mem_update same).2 ⟨r, hr, by rw [hp]; rfl⟩

theorem undecided_of_isUndecided {id : String} {r : AuthorizationRequestRecord}
    (h : isUndecided id r = true) : r.decision = none := by
  unfold isUndecided at h
  simp only [Bool.and_eq_true, Option.isNone_iff_eq_none] at h
  exact h.2

theorem undecided_of_isPending {id : String} {nowMs : Int} {r : AuthorizationRequestRecord}
    (h : isPending r id nowMs = true) : r.decision = none := by
  unfold isPending at h
  simp only [Bool.and_eq_true, Option.isNone_iff_eq_none] at h
  exact h.1.2

theorem Change.grows (h : Change s e t) : Grows s t := by
  cases h with
  | idle => exact .refl s
  | requested insert =>
    obtain ⟨-, -, hmem⟩ := Keyed.insert_eq_some insert
    exact ⟨fun r hr _ => (hmem r).2 (.inr hr), fun _ h => h⟩
  | nonce =>
    exact ⟨fun _ hr ha =>
      mem_update_approved (by intro _; rfl) (fun _ => undecided_of_isPending) hr ha, fun _ h => h⟩
  | approved =>
    exact ⟨fun _ hr ha =>
      mem_update_approved (by intro _; rfl) (fun _ => undecided_of_isUndecided) hr ha,
      List.subset_append_left _ _⟩
  | denied =>
    exact ⟨fun _ hr ha =>
      mem_update_approved (by intro _; rfl) (fun _ => undecided_of_isUndecided) hr ha, fun _ h => h⟩
  | exchanged _ _ issue | rotated _ _ _ _ issue =>
    obtain ⟨hreq, -⟩ := issue_eq_some issue
    exact ⟨fun r hr _ => hreq ▸ hr, List.subset_append_left _ _⟩
  | revoked => exact ⟨fun _ h _ => h, fun _ h => h⟩

/-- Tokens under their digests stay so when one comes in that clashes with none. -/
theorem digests_insert {tokens tokens' : Keyed RefreshTokenRecord.id} {a : RefreshTokenRecord}
    (h : ∀ t ∈ tokens.items, ∀ u ∈ tokens.items, t.tokenDigest = u.tokenDigest → t.id = u.id)
    (insert : tokens.insert (·.tokenDigest == ·.tokenDigest) a = some tokens') :
    ∀ t ∈ tokens'.items, ∀ u ∈ tokens'.items, t.tokenDigest = u.tokenDigest → t.id = u.id := by
  obtain ⟨-, hclash, hmem⟩ := Keyed.insert_eq_some insert
  simp only [beq_eq_false_iff_ne, ne_eq] at hclash
  intro t ht u hu heq
  rcases (hmem t).1 ht with rfl | ht <;> rcases (hmem u).1 hu with rfl | hu
  · rfl
  · exact absurd heq (hclash u hu)
  · exact absurd heq.symm (hclash t ht)
  · exact h t ht u hu heq

theorem digests_update {tokens : Keyed RefreshTokenRecord.id} {p : RefreshTokenRecord → Bool}
    {f : RefreshTokenRecord → RefreshTokenRecord} (same : ∀ a, (f a).id = a.id)
    (digest : ∀ a, (f a).tokenDigest = a.tokenDigest)
    (h : ∀ t ∈ tokens.items, ∀ u ∈ tokens.items, t.tokenDigest = u.tokenDigest → t.id = u.id) :
    ∀ t ∈ (tokens.update p f same).items, ∀ u ∈ (tokens.update p f same).items,
      t.tokenDigest = u.tokenDigest → t.id = u.id := by
  have unchanged (a : RefreshTokenRecord) : (if p a then f a else a).id = a.id ∧
      (if p a then f a else a).tokenDigest = a.tokenDigest := by
    by_cases hp : p a
    · rw [if_pos hp]
      exact ⟨same a, digest a⟩
    · rw [if_neg hp]
      exact ⟨rfl, rfl⟩
  intro t ht u hu heq
  obtain ⟨a, ha, rfl⟩ := (Keyed.mem_update same).1 ht
  obtain ⟨b, hb, rfl⟩ := (Keyed.mem_update same).1 hu
  rw [(unchanged a).2, (unchanged b).2] at heq
  rw [(unchanged a).1, (unchanged b).1]
  exact h a ha b hb heq

theorem Lineage.empty : Lineage .empty where
  codes _ h := by cases h
  access _ h := by cases h
  refresh _ h := by cases h
  digests _ h := by cases h

theorem Lineage.change (L : Lineage s) (h : Change s e t) (hneed : needs s e) : Lineage t := by
  have g := h.grows
  have codes : ∀ c ∈ s.store.codes.items, CodeFrom t c := fun c hc => (L.codes c hc).grows g
  have access : ∀ a ∈ s.store.accessTokens.items, AccessFrom t a :=
    fun a ha => (L.access a ha).grows g
  have refresh : ∀ a ∈ s.store.refreshTokens.items, RefreshFrom t a :=
    fun a ha => (L.refresh a ha).grows g
  cases h with
  | idle => exact L
  | requested | nonce | denied => exact ⟨codes, access, refresh, L.digests⟩
  | @approved input req codes' hmem hid hdec insert =>
    refine ⟨fun c hc => ?_, access, refresh, L.digests⟩
    obtain ⟨-, -, hnew⟩ := Keyed.insert_eq_some insert
    rcases (hnew c).1 hc with rfl | hc
    · have hund : isUndecided input.requestId req = true := by simp [isUndecided, hid, hdec]
      refine ⟨{ req with
        decision := some .approved, userId := some input.userId,
        workspaceId := some input.workspaceId }, (Keyed.mem_update (by intro _; rfl)).2
          ⟨req, hmem, if_pos hund⟩, ?_,
        ⟨rfl, rfl, rfl, rfl, rfl, fun _ h => h⟩, rfl, rfl⟩
      rw [show req.id = input.requestId from hid]
      exact List.mem_append_right _ (List.mem_singleton.2 rfl)
    · exact codes c hc
  | @exchanged input code store hmem hopen issue =>
    obtain ⟨-, hcodes, haccess, hrefresh⟩ := issue_eq_some issue
    obtain ⟨r, hr, hg, ha, -⟩ := codes code hmem
    obtain ⟨-, -, hnewA⟩ := Keyed.insert_eq_some haccess
    obtain ⟨-, -, hnewR⟩ := Keyed.insert_eq_some hrefresh
    refine ⟨fun c hc => ?_, fun a ha' => ?_, fun a ha' => ?_, digests_insert L.digests hrefresh⟩
    · rw [show ({ store := store, granted := _ } : Grants).store.codes = _ from hcodes] at hc
      exact Keyed.of_mem_update (by intro _; rfl) (by intro _ h; exact h) codes c hc
    · rcases (hnewA a).1 ha' with rfl | ha'
      · exact ⟨r, hr, ha⟩
      · exact access a ha'
    · rcases (hnewR a).1 ha' with rfl | ha'
      · exact ⟨r, hr, code.id, hg, List.mem_append_right _ (List.mem_singleton.2 rfl), ha⟩
      · exact refresh a ha'
  | @rotated input old store hmem hdig hopen hunrevoked issue =>
    obtain ⟨-, hcodes, haccess, hrefresh⟩ := issue_eq_some issue
    obtain ⟨read, hread, hreadDig, hscope⟩ := hneed
    obtain rfl : old = read := Keyed.eq_of_key hmem hread
      (L.digests old hmem read hread (hdig.trans hreadDig.symm))
    obtain ⟨r, hr, c, hc, hf, ha⟩ := refresh old hmem
    obtain ⟨-, -, hnewA⟩ := Keyed.insert_eq_some haccess
    obtain ⟨-, -, hnewR⟩ := Keyed.insert_eq_some hrefresh
    have narrower : Approves r old.clientId old.userId old.workspaceId old.resource input.newScope :=
      { ha with scope := fun _ hw => ha.scope (hscope hw) }
    refine ⟨fun c hc => codes c (hcodes ▸ hc), fun a ha' => ?_, fun a ha' => ?_, digests_insert
      (digests_update (by intro _; rfl) (by intro _; rfl) L.digests) hrefresh⟩
    · rcases (hnewA a).1 ha' with rfl | ha'
      · exact ⟨r, hr, narrower⟩
      · exact access a ha'
    · rcases (hnewR a).1 ha' with rfl | ha'
      · exact ⟨r, hr, c, hc, hf, narrower⟩
      · exact Keyed.of_mem_update (by intro _; rfl) (by intro _ h; exact h) refresh a ha'
  | revoked =>
    exact ⟨codes, access, Keyed.of_mem_update (by intro _; rfl) (by intro _ h; exact h) refresh,
      digests_update (by intro _; rfl) (by intro _; rfl) L.digests⟩

end lineage

/-! ### each thing is spent once -/

/-- What a grant spends. -/
inductive Spent where
  | request (id : String)
  | code (id : String)
  | token (id : String)
  deriving DecidableEq, Repr

def Grant.spends : Grant → Spent
  | .code requestId _ => .request requestId
  | .family codeId _ => .code codeId
  | .rotation oldTokenId _ => .token oldTokenId

/-- The row says that it is spent. -/
def Spent.UsedUp (s : OAuthStore) : Spent → Prop
  | .request id => ∃ r ∈ s.requests.items, r.id = id ∧ r.decision ≠ none
  | .code id => ∃ c ∈ s.codes.items, c.id = id ∧ c.consumedAtMs ≠ none
  | .token id => ∃ t ∈ s.refreshTokens.items, t.id = id ∧ t.consumedAtMs ≠ none

structure Once (s : Grants) : Prop where
  nodup : (s.granted.map Grant.spends).Nodup
  usedUp : ∀ g ∈ s.granted, g.spends.UsedUp s.store

section once

variable {S : OAuthService} {s t : Grants} {e : Ask}

theorem Spent.UsedUp.change (h : Change s e t) {x : Spent} (hx : x.UsedUp s.store) :
    x.UsedUp t.store := by
  cases h with
  | idle => exact hx
  | requested insert =>
    obtain ⟨-, -, hmem⟩ := Keyed.insert_eq_some insert
    cases x with
    | request id =>
      obtain ⟨r, hr, h⟩ := hx
      exact ⟨r, (hmem r).2 (.inr hr), h⟩
    | code | token => exact hx
  | nonce =>
    cases x with
    | request id => exact Keyed.exists_mem_update (by intro _; rfl) (by intro _ h; exact h) hx
    | code | token => exact hx
  | denied =>
    cases x with
    | request id =>
      exact Keyed.exists_mem_update (by intro _; rfl) (by rintro _ ⟨h, -⟩; exact ⟨h, nofun⟩) hx
    | code | token => exact hx
  | approved mem own undecided insert =>
    cases x with
    | request id =>
      exact Keyed.exists_mem_update (by intro _; rfl) (by rintro _ ⟨h, -⟩; exact ⟨h, nofun⟩) hx
    | code id =>
      obtain ⟨-, -, hmem⟩ := Keyed.insert_eq_some insert
      obtain ⟨c, hc, h⟩ := hx
      exact ⟨c, (hmem c).2 (.inr hc), h⟩
    | token => exact hx
  | exchanged _ _ issue =>
    obtain ⟨hreq, hcodes, -, hrefresh⟩ := issue_eq_some issue
    obtain ⟨-, -, hmem⟩ := Keyed.insert_eq_some hrefresh
    cases x with
    | request id =>
      unfold UsedUp
      rw [hreq]
      exact hx
    | code id =>
      unfold UsedUp
      rw [hcodes]
      exact Keyed.exists_mem_update (by intro _; rfl) (by rintro _ ⟨h, -⟩; exact ⟨h, nofun⟩) hx
    | token id =>
      obtain ⟨a, ha, h⟩ := hx
      exact ⟨a, (hmem a).2 (.inr ha), h⟩
  | @rotated input old _ _ _ _ _ issue =>
    obtain ⟨hreq, hcodes, -, hrefresh⟩ := issue_eq_some issue
    obtain ⟨-, -, hmem⟩ := Keyed.insert_eq_some hrefresh
    cases x with
    | request id =>
      unfold UsedUp
      rw [hreq]
      exact hx
    | code id =>
      unfold UsedUp
      rw [hcodes]
      exact hx
    | token id =>
      have still : ∃ a ∈ (s.store.consumed old.id input.nowMs).items,
          a.id = id ∧ a.consumedAtMs ≠ none :=
        Keyed.exists_mem_update (by intro _; rfl) (by rintro _ ⟨h, -⟩; exact ⟨h, nofun⟩) hx
      obtain ⟨a, ha, h⟩ := still
      exact ⟨a, (hmem a).2 (.inr ha), h⟩
  | revoked =>
    cases x with
    | token id => exact Keyed.exists_mem_update (by intro _; rfl) (by intro _ h; exact h) hx
    | request | code => exact hx

theorem Once.empty : Once .empty := ⟨List.nodup_nil, by rintro g ⟨⟩⟩

/-- A grant that spends what was not spent before. -/
theorem Once.grant (O : Once s) (h : Change s e t) {g : Grant} (granted : t.granted = s.granted ++ [g])
    (before : ¬g.spends.UsedUp s.store) (after : g.spends.UsedUp t.store) : Once t where
  nodup := by
    rw [granted, List.map_append]
    refine List.nodup_append_comm.1 (List.nodup_cons.2 ⟨fun hmem => ?_, O.nodup⟩)
    obtain ⟨g', hg', heq⟩ := List.mem_map.1 hmem
    exact before (heq ▸ O.usedUp g' hg')
  usedUp g' hg' := by
    rw [granted] at hg'
    rcases List.mem_append.1 hg' with hg' | hg'
    · exact (O.usedUp g' hg').change h
    · rw [List.mem_singleton.1 hg']
      exact after

theorem Once.change (O : Once s) (h : Change s e t) : Once t := by
  have still : t.granted = s.granted → Once t := fun hg =>
    ⟨hg ▸ O.nodup, fun g h' => (O.usedUp g (hg ▸ h')).change h⟩
  have hch := h
  cases h with
  | idle => exact O
  | requested | nonce | denied | revoked => exact still rfl
  | @approved input req codes hmem hid hdec insert =>
    refine O.grant hch rfl ?_ ?_
    · rintro ⟨r, hr, hrid, hrdec⟩
      rw [Keyed.eq_of_key hr hmem (hrid.trans hid.symm)] at hrdec
      exact hrdec hdec
    · have hund : isUndecided input.requestId req = true := by simp [isUndecided, hid, hdec]
      refine ⟨_, (Keyed.mem_update (by intro _; rfl)).2 ⟨req, hmem, if_pos hund⟩, hid, nofun⟩
  | @exchanged input code store hmem hopen issue =>
    obtain ⟨-, hcodes, -⟩ := issue_eq_some issue
    refine O.grant hch rfl ?_ ?_
    · rintro ⟨c, hc, hcid, hcon⟩
      rw [Keyed.eq_of_key hc hmem hcid] at hcon
      exact hcon hopen
    · have hun : isUnspent code.id code = true := by simp [isUnspent, hopen]
      unfold Spent.UsedUp
      dsimp only [Grant.spends]
      rw [hcodes]
      exact ⟨_, (Keyed.mem_update (by intro _; rfl)).2 ⟨code, hmem, if_pos hun⟩, rfl, nofun⟩
  | @rotated input old store hmem hdig hopen hunrevoked issue =>
    obtain ⟨-, -, -, hrefresh⟩ := issue_eq_some issue
    obtain ⟨-, -, hnew⟩ := Keyed.insert_eq_some hrefresh
    refine O.grant hch rfl ?_ ?_
    · rintro ⟨c, hc, hcid, hcon⟩
      rw [Keyed.eq_of_key hc hmem hcid] at hcon
      exact hcon hopen
    · have hun : isUnconsumed old.id old = true := by simp [isUnconsumed, hopen]
      exact ⟨_, (hnew _).2 (.inr ((Keyed.mem_update (by intro _; rfl)).2 ⟨old, hmem, if_pos hun⟩)),
        rfl, nofun⟩

end once

/-! ### families -/

/-- A family has one token that can be rotated, and is revoked as a whole. -/
structure Families (tokens : List RefreshTokenRecord) : Prop where
  live : ∀ t ∈ tokens, ∀ u ∈ tokens, t.familyId = u.familyId → t.consumedAtMs = none →
    u.consumedAtMs = none → t = u
  whole : ∀ t ∈ tokens, ∀ u ∈ tokens, t.familyId = u.familyId → t.revokedAtMs ≠ none →
    u.revokedAtMs ≠ none

/-- The rows of a family. -/
def Grants.family (s : Grants) (familyId : String) : List RefreshTokenRecord :=
  s.store.refreshTokens.items.filter (·.familyId = familyId)

/-- The family has a token, and none that is not revoked. -/
def Grants.Revoked (s : Grants) (familyId : String) : Prop :=
  s.family familyId ≠ [] ∧ ∀ t ∈ s.family familyId, t.revokedAtMs ≠ none

section families

variable {s t : Grants} {e : Ask}

theorem mem_family {familyId : String} {a : RefreshTokenRecord} :
    a ∈ s.family familyId ↔ a ∈ s.store.refreshTokens.items ∧ a.familyId = familyId := by
  unfold Grants.family
  rw [List.mem_filter, decide_eq_true_eq]

theorem Families.empty : Families [] := ⟨by rintro t ⟨⟩, by rintro t ⟨⟩⟩

/-- What is left unconsumed was so before, and is not the token consumed. -/
theorem mem_consumed {store : OAuthStore} {id : String} {nowMs : Int} {b : RefreshTokenRecord}
    (hb : b ∈ (store.consumed id nowMs).items) :
    ∃ a ∈ store.refreshTokens.items, a.familyId = b.familyId ∧ a.revokedAtMs = b.revokedAtMs ∧
      (b.consumedAtMs = none → a = b ∧ a.id ≠ id) := by
  obtain ⟨a, ha, rfl⟩ := (Keyed.mem_update (by intro _; rfl)).1 hb
  by_cases hp : isUnconsumed id a = true
  · rw [if_pos hp]
    exact ⟨a, ha, rfl, rfl, nofun⟩
  · rw [if_neg hp]
    refine ⟨a, ha, rfl, rfl, fun hn => ⟨rfl, fun hid => hp ?_⟩⟩
    simp [isUnconsumed, hid, hn]

theorem Families.rotated {store : OAuthStore} (F : Families store.refreshTokens.items)
    {old new : RefreshTokenRecord} {nowMs : Int} {tokens : Keyed RefreshTokenRecord.id}
    (mem : old ∈ store.refreshTokens.items) (unconsumed : old.consumedAtMs = none)
    (unrevoked : old.revokedAtMs = none) (family : new.familyId = old.familyId)
    (fresh : new.revokedAtMs = none)
    (hnew : ∀ b, b ∈ tokens.items ↔ b = new ∨ b ∈ (store.consumed old.id nowMs).items) :
    Families tokens.items := by
  -- no token of the family is left unconsumed, nor is any revoked
  have spent {b : RefreshTokenRecord} (hb : b ∈ (store.consumed old.id nowMs).items)
      (hf : b.familyId = old.familyId) : b.consumedAtMs ≠ none ∧ b.revokedAtMs = none := by
    obtain ⟨a, ha, haf, har, hac⟩ := mem_consumed hb
    refine ⟨fun hn => ?_, ?_⟩
    · obtain ⟨rfl, hne⟩ := hac hn
      exact hne (congrArg _ (F.live a ha old mem hf hn unconsumed))
    · rw [← har]
      by_contra hr
      exact F.whole a ha old mem (haf.trans hf) hr unrevoked
  refine ⟨fun a ha b hb hfam hca hcb => ?_, fun a ha b hb hfam hra => ?_⟩ <;>
    rcases (hnew a).1 ha with rfl | ha <;> rcases (hnew b).1 hb with rfl | hb
  · rfl
  · exact absurd hcb (spent hb (hfam.symm.trans family)).1
  · exact absurd hca (spent ha (hfam.trans family)).1
  · obtain ⟨c, hc, -, -, hcc⟩ := mem_consumed ha
    obtain ⟨d, hd, -, -, hdd⟩ := mem_consumed hb
    obtain ⟨rfl, -⟩ := hcc hca
    obtain ⟨rfl, -⟩ := hdd hcb
    exact F.live c hc d hd hfam hca hcb
  · exact hra
  · exact absurd fresh hra
  · exact absurd (spent ha (hfam.trans family)).2 hra
  · obtain ⟨c, hc, hcf, hcr, -⟩ := mem_consumed ha
    obtain ⟨d, hd, hdf, hdr, -⟩ := mem_consumed hb
    exact hdr ▸ F.whole c hc d hd (hcf.trans (hfam.trans hdf.symm)) (hcr ▸ hra)

theorem Families.revoked {store : OAuthStore} (F : Families store.refreshTokens.items)
    (familyId : String) (nowMs : Int) : Families (store.revoked familyId nowMs).items := by
  refine ⟨fun a ha b hb hfam hca hcb => ?_, fun a ha b hb hfam hra => ?_⟩ <;>
    obtain ⟨c, hc, rfl⟩ := (Keyed.mem_update (by intro _; rfl)).1 ha <;>
    obtain ⟨d, hd, rfl⟩ := (Keyed.mem_update (by intro _; rfl)).1 hb
  · have same (a : RefreshTokenRecord) :
        (if (a.familyId = familyId && a.revokedAtMs.isNone) = true then
          { a with revokedAtMs := some nowMs } else a).familyId = a.familyId ∧
        (if (a.familyId = familyId && a.revokedAtMs.isNone) = true then
          { a with revokedAtMs := some nowMs } else a).consumedAtMs = a.consumedAtMs := by
      split <;> exact ⟨rfl, rfl⟩
    rw [(same c).1, (same d).1] at hfam
    rw [(same c).2] at hca
    rw [(same d).2] at hcb
    rw [F.live c hc d hd hfam hca hcb]
  · by_cases hf : d.familyId = familyId
    · by_cases hn : d.revokedAtMs = none
      · simp [hf, hn]
      · simp [hn]
    · have hc' : c.familyId ≠ familyId := by
        intro h
        apply hf
        simp only [hf] at hfam
        split at hfam <;> simp_all
      simp only [hc', hf, decide_false, Bool.false_and, Bool.false_eq_true, if_false] at hfam hra ⊢
      exact F.whole c hc d hd hfam hra

theorem Families.change (F : Families s.store.refreshTokens.items) (h : Change s e t)
    (fresh : freshFamily s e) : Families t.store.refreshTokens.items := by
  cases h with
  | idle | requested | nonce | approved | denied => exact F
  | exchanged _ _ issue =>
    obtain ⟨-, -, -, hrefresh⟩ := issue_eq_some issue
    obtain ⟨-, -, hnew⟩ := Keyed.insert_eq_some hrefresh
    refine ⟨fun a ha b hb hfam => ?_, fun a ha b hb hfam => ?_⟩ <;>
      rcases (hnew a).1 ha with rfl | ha <;> rcases (hnew b).1 hb with rfl | hb
    · exact fun _ _ => rfl
    · exact absurd hfam.symm (fresh b hb)
    · exact absurd hfam (fresh a ha)
    · exact F.live a ha b hb hfam
    · exact id
    · exact absurd hfam.symm (fresh b hb)
    · exact absurd hfam (fresh a ha)
    · exact F.whole a ha b hb hfam
  | rotated mem _ unconsumed unrevoked issue =>
    obtain ⟨-, -, -, hrefresh⟩ := issue_eq_some issue
    obtain ⟨-, -, hnew⟩ := Keyed.insert_eq_some hrefresh
    refine F.rotated mem unconsumed unrevoked ?_ ?_ hnew <;> rfl
  | revoked => exact F.revoked _ _

/-- The rows of a revoked family stay as they are. -/
theorem Change.family_frozen (h : Change s e t) (fresh : freshFamily s e) {familyId : String} (hrev : s.Revoked familyId) :
    t.family familyId = s.family familyId := by
  obtain ⟨hne, hall⟩ := hrev
  unfold Grants.family
  cases h with
  | idle | requested | nonce | approved | denied => rfl
  | @exchanged input code store _ _ issue =>
    obtain ⟨-, -, -, hrefresh⟩ := issue_eq_some issue
    rw [Keyed.insert_items hrefresh, List.filter_append]
    have hother : (exchangedOf code input).refreshToken.familyId ≠ familyId := by
      obtain ⟨a, ha⟩ := List.exists_mem_of_ne_nil _ hne
      obtain ⟨hmem, hf⟩ := mem_family.1 ha
      exact fun heq => fresh a hmem (hf.trans heq.symm)
    simp [hother]
  | @rotated input old store mem _ unconsumed unrevoked issue =>
    obtain ⟨-, -, -, hrefresh⟩ := issue_eq_some issue
    have hother : old.familyId ≠ familyId :=
      fun heq => hall old (mem_family.2 ⟨mem, heq⟩) unrevoked
    rw [Keyed.insert_items hrefresh, List.filter_append]
    have hnew : (rotatedOf old input).newRefreshToken.familyId ≠ familyId := hother
    refine (congrArg (· ++ _) (Keyed.filter_update (by intro _; rfl) (by intro _; rfl) ?_)).trans ?_
    · intro a ha hq hp
      simp only [isUnconsumed, Bool.and_eq_true, decide_eq_true_eq] at hp hq
      rw [Keyed.eq_of_key ha mem hp.1] at hq
      exact absurd hq hother
    · simp [hnew]
  | @revoked f nowMs =>
    refine Keyed.filter_update (by intro _; rfl) (by intro _; rfl) fun a ha hq hp => ?_
    simp only [Bool.and_eq_true, decide_eq_true_eq, Option.isNone_iff_eq_none] at hp hq
    exact absurd hp.2 (hall a (mem_family.2 ⟨ha, hq⟩))

end families

end Ceo.OAuth
