import Ceo.OAuth.Grant

/-!
# Safety of the grants

Every method is safe among all the others: a rotation is asked for only with a
scope that the token read has, and what a method answers is true of the store
then and later. The invariants of `Grant.lean` hold in every state that any
number of requests reach, whatever the order of their calls.
-/

namespace Ceo.OAuth

open Ceo.Lib
open Ceo.Jobs (isJsSpace)
open OAuthStore (codeOf exchangedOf)

/-! ### scopes -/

theorem splitOnP_plain {p : Char → Bool} (t : List Char) :
    ∀ w ∈ t.splitOnP p, ∀ c ∈ w, p c = false := by
  induction t with
  | nil => simp
  | cons c cs ih =>
    obtain ⟨w, ws, hw⟩ := List.exists_cons_of_ne_nil (List.splitOnP_ne_nil p cs)
    rw [hw] at ih
    rw [List.splitOnP_cons_eq_if_modifyHead, hw]
    by_cases hc : p c
    · rw [if_pos hc]
      rintro v (_ | ⟨_, hv⟩)
      · simp
      · exact ih v hv
    · rw [if_neg hc, List.modifyHead_cons]
      rintro v (_ | ⟨_, hv⟩)
      · rintro d (_ | ⟨_, hd⟩)
        · exact Bool.eq_false_iff.2 hc
        · exact ih w (List.mem_cons_self ..) d hd
      · exact ih v (List.mem_cons_of_mem _ hv)

theorem mem_splitSpaces {w s : String} (h : w ∈ splitSpaces s) :
    w.toList ∈ s.toList.splitOnP isJsSpace := by
  unfold splitSpaces at h
  obtain ⟨p, ps, hp⟩ := List.exists_cons_of_ne_nil (List.splitOnP_ne_nil isJsSpace s.toList)
  rw [hp] at h ⊢
  obtain ⟨t, ht, rfl⟩ := List.mem_map.1 h
  rw [String.toList_ofList]
  rcases List.mem_cons.1 ht with rfl | ht
  · exact List.mem_cons_self ..
  refine List.mem_cons_of_mem _ ?_
  rcases List.mem_append.1 ht with ht | ht
  · exact List.dropLast_subset _ (List.mem_filter.1 ht).1
  · exact List.mem_of_getLast? (Option.mem_toList.1 ht)

theorem mem_scopes {w s : String} (h : w ∈ scopes s) : w ≠ "" ∧ w ∈ splitSpaces s := by
  obtain ⟨hmem, hne⟩ := List.mem_filter.1 h
  exact ⟨of_decide_eq_true hne, hmem⟩

/-- The pieces of words that have no space, joined by one. -/
theorem mem_splitOnP_join {l : List String} (plain : ∀ w ∈ l, ∀ c ∈ w.toList, isJsSpace c = false)
    {t : List Char} (h : t ∈ (" ".intercalate l).toList.splitOnP isJsSpace) :
    t = [] ∨ ∃ w ∈ l, t = w.toList := by
  induction l with
  | nil => exact .inl (by simpa using h)
  | cons v vs ih =>
    have hv := List.splitOnP_eq_singleton (plain v (List.mem_cons_self ..))
    cases vs with
    | nil =>
      rw [String.intercalate_singleton, hv] at h
      exact .inr ⟨v, List.mem_cons_self .., List.mem_singleton.1 h⟩
    | cons u us =>
      have hjoin : (" ".intercalate (v :: u :: us)).toList =
          v.toList ++ ' ' :: (" ".intercalate (u :: us)).toList := by
        rw [String.intercalate_cons_cons, String.toList_append, String.toList_append,
          List.append_assoc]
        rfl
      rw [hjoin, List.splitOnP_append_cons _ _ (by decide), hv] at h
      rcases List.mem_append.1 h with h | h
      · exact .inr ⟨v, List.mem_cons_self .., List.mem_singleton.1 h⟩
      · rcases ih (fun w hw => plain w (List.mem_cons_of_mem _ hw)) h with h | ⟨w, hw, h⟩
        · exact .inl h
        · exact .inr ⟨w, List.mem_cons_of_mem _ hw, h⟩

/-- Scopes that are joined are the scopes they were. -/
theorem scopes_join {s : String} : scopes (" ".intercalate (scopes s)) ⊆ scopes s := by
  intro w hw
  obtain ⟨hne, hmem⟩ := mem_scopes hw
  rcases mem_splitOnP_join (fun v hv => splitOnP_plain _ _ (mem_splitSpaces (mem_scopes hv).2))
    (mem_splitSpaces hmem) with h | ⟨v, hv, h⟩
  · exact absurd (String.toList_injective (h.trans String.toList_empty.symm)) hne
  · rwa [String.toList_injective h]

/-- A refresh never widens the scope. -/
theorem narrowedScope_subset {existing : RefreshTokenRecord} {scope : Option String}
    {newScope : String} (h : OAuthService.narrowedScope existing scope = .ok newScope) :
    scopes newScope ⊆ scopes existing.scope := by
  unfold OAuthService.narrowedScope at h
  split at h
  · cases h
    exact fun _ h => h
  · split at h
    · cases h
      exact fun _ h => h
    · dsimp only at h
      split at h
      · cases h
      next hall =>
        cases h
        intro w hw
        have hreq := scopes_join hw
        have hin := List.find?_eq_none.1 hall w hreq
        rw [decide_eq_true_eq, not_not] at hin
        exact List.mem_filter.2 ⟨hin, decide_eq_true (mem_scopes hreq).1⟩

/-! ### the contract -/

/-- What the others do between two calls of a request is a call that has what it needs. -/
def chained (drawn : Grants → Ask → Prop) : Contract Grants Ask Choice (Ask × Choice) where
  policy := ⟨fun s e _ => drawn s e, fun _ _ => True, fun _ => True,
    fun s a => needs s a.1 ∧ drawn s a.1⟩
  inv s := Lineage s ∧ Once s
  needs := needs

section contract

variable {S : OAuthService} {drawn : Grants → Ask → Prop}

/-- What a change keeps is kept by the others. -/
theorem stable_of_change {A : Grants → Prop}
    (keep : ∀ {s t : Grants} {e : Ask}, A s → Change s e t → drawn s e → A t) :
    S.server.Stable (chained drawn).policy A := by
  rintro s ⟨e, x⟩ t hA ⟨-, hdrawn⟩ hx
  obtain ⟨⟨r, u⟩, hserve, rfl⟩ := Option.map_eq_some_iff.1 hx
  exact keep hA (serve_change hserve) hdrawn

theorem served (S : OAuthService) (drawn : Grants → Ask → Prop) :
    S.server.Served (drawing drawn) (chained drawn) where
  init s hs := by
    obtain rfl : s = .empty := hs
    exact ⟨.empty, .empty⟩
  replies _ _ _ h := h
  surrounds _ _ h := h.elim
  fits s e x r t _ hneed hdrawn hserve := by
    refine .single ⟨(e, x), ⟨hneed, hdrawn⟩, ?_⟩
    show (S.serve s e x).map (·.2) = some t
    rw [show S.serve s e x = some (r, t) from hserve]
    rfl
  kept := by
    rintro s ⟨e, x⟩ t ⟨L, O⟩ ⟨hneed, -⟩ hx
    obtain ⟨⟨r, u⟩, hserve, rfl⟩ := Option.map_eq_some_iff.1 hx
    have hch := serve_change hserve
    exact ⟨L.change hch hneed, O.change hch⟩

end contract

/-! ### what an answer says of the store -/

/-- A refresh token with the digest is there. -/
def HasRefresh (digest familyId scope : String) (s : Grants) : Prop :=
  ∃ t ∈ s.store.refreshTokens.items, t.tokenDigest = digest ∧ t.familyId = familyId ∧
    t.scope = scope

/-- The code was issued to the client at the address, and its verifier was shown. -/
def Exchangeable (S : OAuthService) (q : ExchangeInput) (s : Grants) : Prop :=
  ∃ c ∈ s.store.codes.items, c.codeDigest = S.sha256Hex q.code ∧ c.clientId = q.clientId ∧
    c.redirectUri = q.redirectUri ∧ c.codeChallenge = S.sha256Base64Url q.codeVerifier

/-- An access token with the digest is there, for these. -/
def HasAccess (S : OAuthService) (token userId workspaceId scope resource : String) (s : Grants) :
    Prop :=
  resource = S.canonicalResource ∧ "mcp" ∈ scopes scope ∧
    ∃ t ∈ s.store.accessTokens.items, t.tokenDigest = S.sha256Hex token ∧ t.userId = userId ∧
      t.workspaceId = workspaceId ∧ t.resource = resource ∧ t.scope = scope

/-- The errors thrown after a revocation. -/
def isRevocation (e : ServiceError) : Prop :=
  e = OAuthService.replayDetected ∨ e = OAuthService.noLongerActive

section kept

variable {s t : Grants} {e : Ask}

theorem HasRefresh.change {digest familyId scope : String} (h : HasRefresh digest familyId scope s)
    (hch : Change s e t) : HasRefresh digest familyId scope t := by
  cases hch with
  | idle | requested | nonce | approved | denied => exact h
  | exchanged _ _ issue =>
    obtain ⟨-, -, -, hrefresh⟩ := issue_eq_some issue
    obtain ⟨-, -, hmem⟩ := Keyed.insert_eq_some hrefresh
    obtain ⟨a, ha, h⟩ := h
    exact ⟨a, (hmem a).2 (.inr ha), h⟩
  | @rotated input old _ _ _ _ _ issue =>
    obtain ⟨-, -, -, hrefresh⟩ := issue_eq_some issue
    obtain ⟨-, -, hmem⟩ := Keyed.insert_eq_some hrefresh
    have still : ∃ a ∈ (s.store.consumed old.id input.nowMs).items,
        a.tokenDigest = digest ∧ a.familyId = familyId ∧ a.scope = scope :=
      Keyed.exists_mem_update (by intro _; rfl) (by intro _ h; exact h) h
    obtain ⟨a, ha, h⟩ := still
    exact ⟨a, (hmem a).2 (.inr ha), h⟩
  | revoked => exact Keyed.exists_mem_update (by intro _; rfl) (by intro _ h; exact h) h

theorem Exchangeable.change {S : OAuthService} {q : ExchangeInput} (h : Exchangeable S q s)
    (hch : Change s e t) : Exchangeable S q t := by
  cases hch with
  | idle | requested | nonce | denied | revoked => exact h
  | approved _ _ _ insert =>
    obtain ⟨-, -, hmem⟩ := Keyed.insert_eq_some insert
    obtain ⟨c, hc, h⟩ := h
    exact ⟨c, (hmem c).2 (.inr hc), h⟩
  | exchanged _ _ issue =>
    obtain ⟨-, hcodes, -⟩ := issue_eq_some issue
    unfold Exchangeable
    rw [hcodes]
    exact Keyed.exists_mem_update (by intro _; rfl) (by intro _ h; exact h) h
  | rotated _ _ _ _ issue =>
    obtain ⟨-, hcodes, -⟩ := issue_eq_some issue
    unfold Exchangeable
    rw [hcodes]
    exact h

theorem access_change {record : AccessTokenRecord}
    (h : record ∈ s.store.accessTokens.items) (hch : Change s e t) :
    record ∈ t.store.accessTokens.items := by
  cases hch with
  | idle | requested | nonce | approved | denied | revoked => exact h
  | exchanged _ _ issue | rotated _ _ _ _ issue =>
    obtain ⟨-, -, haccess, -⟩ := issue_eq_some issue
    exact ((Keyed.insert_eq_some haccess).2.2 _).2 (.inr h)

theorem HasAccess.change {S : OAuthService} {token userId workspaceId scope resource : String}
    (h : HasAccess S token userId workspaceId scope resource s) (hch : Change s e t) :
    HasAccess S token userId workspaceId scope resource t := by
  obtain ⟨hres, hmcp, a, ha, h⟩ := h
  exact ⟨hres, hmcp, a, access_change ha hch, h⟩

end kept

/-! ### the methods -/

section methods

variable {S : OAuthService} {drawn : Grants → Ask → Prop}
  {Q : Except ServiceError Reply → Grants → Prop} {s : Grants}

abbrev MethodSafe (S : OAuthService) (drawn : Grants → Ask → Prop)
    (Q : Except ServiceError Reply → Grants → Prop) (m : Method) (s : Grants) : Prop :=
  Safe S.server.toSurroundings (chained drawn) Q m s

/-- A fact that every call keeps is there after the next one. -/
theorem safe_carry {A : Grants → Prop}
    (keep : ∀ {s t : Grants} {e : Ask}, A s → Change s e t → drawn s e → A t) {e : Ask}
    {k : e.Answer → Method} (hA : A s) (hneed : ∀ s, needs s e)
    (next : ∀ r t, A t → MethodSafe S drawn Q (k r) t) : MethodSafe S drawn Q (.call e k) s := by
  intro s' hrely _
  have hA' : A s' := (stable_of_change keep).rely hrely hA
  exact ⟨hneed s', fun x r t hx hserve _ => next r t (keep hA' (serve_change hserve) hx)⟩

/-- A method that never rotates needs nothing. -/
theorem safe_of_uses {m : Method} (h : m.Uses fun e => ∀ s, needs s e) (hQ : ∀ a s, Q a s) :
    MethodSafe S drawn Q m s := by
  induction m generalizing s with
  | done a => exact hQ a s
  | call e k ih => exact fun s' _ _ => ⟨h.1 s', fun x r t _ _ _ => ih r (h.2 r)⟩

abbrev Needless (m : Method) : Prop := m.Uses fun e => ∀ s, needs s e

theorem needless_initiate (q : InitiateInput) : Needless (S.initiateAuthorizationRequest q) := by
  unfold OAuthService.initiateAuthorizationRequest
  split
  · exact trivial
  split
  · exact trivial
  split
  · exact trivial
  refine ⟨fun _ => trivial, fun r => ?_⟩
  rcases r with e | metadata
  · dsimp only
    split <;> exact trivial
  dsimp only
  split
  · exact trivial
  split
  · exact trivial
  refine ⟨fun _ => trivial, fun _ => ⟨fun _ => trivial, fun _ => ⟨fun _ => trivial, fun r => ?_⟩⟩⟩
  rcases r with e | ⟨⟩
  · exact trivial
  refine ⟨fun _ => trivial, fun r => ?_⟩
  rcases r with e | ⟨_ | request⟩ <;> exact trivial

theorem needless_createConsentNonce (requestId : String) :
    Needless (S.createConsentNonce requestId) := by
  refine ⟨fun _ => trivial, fun _ => ⟨fun _ => trivial, fun _ => ⟨fun _ => trivial, fun r => ?_⟩⟩⟩
  rcases r with e | ⟨_ | _⟩ <;> exact trivial

theorem needless_approveConsent (requestId nonce userId : String) :
    Needless (S.approveConsent requestId nonce userId) := by
  refine ⟨fun _ => trivial, fun r => ?_⟩
  rcases r with e | ⟨_ | _⟩
  · exact trivial
  · exact trivial
  refine ⟨fun _ => trivial, fun r => ?_⟩
  rcases r with e | ⟨_ | ⟨workspaceId, _ | _⟩⟩
  · exact trivial
  · exact trivial
  · refine ⟨fun _ => trivial, fun r => ?_⟩
    rcases r with e | ⟨_ | _⟩
    · exact trivial
    · exact trivial
    refine ⟨fun _ => trivial, fun _ => ⟨fun _ => trivial, fun _ => ⟨fun _ => trivial, fun _ =>
      ⟨fun _ => trivial, fun r => ?_⟩⟩⟩⟩
    rcases r with e | ⟨_ | record⟩
    · exact trivial
    · exact trivial
    refine ⟨fun _ => trivial, fun r => ?_⟩
    rcases r with e | authReq <;> exact trivial
  · exact trivial

theorem needless_denyConsent (requestId nonce : String) :
    Needless (S.denyConsent requestId nonce) := by
  refine ⟨fun _ => trivial, fun r => ?_⟩
  rcases r with e | ⟨_ | authReq⟩
  · exact trivial
  · exact trivial
  refine ⟨fun _ => trivial, fun _ => ⟨fun _ => trivial, fun r => ?_⟩⟩
  rcases r with e | ⟨_ | _⟩ <;> exact trivial

/-! ### exchangeAuthorizationCode -/

theorem safe_exchange (q : ExchangeInput) :
    MethodSafe S drawn (fun a t => ∀ reply, a = .ok reply → Exchangeable S q t)
      (S.exchangeAuthorizationCode q) s := by
  unfold OAuthService.exchangeAuthorizationCode
  split
  · exact fun _ h => by cases h
  split
  · exact fun _ h => by cases h
  refine fun _ _ _ => ⟨trivial, fun _ _ _ _ _ _ => fun _ _ _ => ⟨trivial, fun _ _ _ _ _ _ =>
    fun _ _ _ => ⟨trivial, fun _ _ _ _ _ _ => fun _ _ _ => ⟨trivial, fun _ _ _ _ _ _ =>
    fun _ _ _ => ⟨trivial, fun _ _ _ _ _ _ => fun _ _ _ => ⟨trivial, fun _ _ _ _ _ _ =>
    fun s' _ _ => ⟨trivial, fun x r t _ hserve _ => ?_⟩⟩⟩⟩⟩⟩⟩
  rcases transact_cases hserve with ⟨e, rfl, -⟩ | ⟨a, store, htx, rfl, rfl⟩
  · exact fun _ h => by cases h
  rcases consume_cases htx with
    ⟨hnone, -⟩ | ⟨code, hmem, hdig, -, hclient, hredirect, -, hpkce, rfl, hissue⟩
  · rcases a with ⟨_ | _⟩ | out
    · exact fun _ h => by cases h
    · exact fun _ h => by cases h
    · cases hnone
  · intro _ _
    obtain ⟨-, hcodes, -⟩ := issue_eq_some hissue
    unfold Exchangeable
    rw [hcodes]
    exact Keyed.exists_mem_update (by intro _; rfl) (by intro _ h; exact h)
      ⟨code, hmem, hdig, hclient, hredirect, hpkce.symm⟩

/-! ### validateAccessToken -/

/-- What a valid answer says of the store. -/
def Validated (S : OAuthService) (token : String) (a : Except ServiceError Reply) (s : Grants) :
    Prop :=
  ∀ userId workspaceId scope resource,
    a = .ok (.validation (.valid userId workspaceId scope resource)) →
      HasAccess S token userId workspaceId scope resource s

theorem safe_invalid {token : String} (error : TokenError) (description : String) :
    MethodSafe S drawn (Validated S token) (OAuthService.invalid error description) s := by
  intro _ _ _ _ h
  cases h

theorem safe_validateFound {token : String} {record : AccessTokenRecord} (now : Int)
    (hmem : record ∈ s.store.accessTokens.items)
    (hdig : record.tokenDigest = S.sha256Hex token) :
    MethodSafe S drawn (Validated S token) (S.validateFound now record) s := by
  unfold OAuthService.validateFound
  split
  · exact safe_invalid _ _
  split
  · exact safe_invalid _ _
  split
  · exact safe_invalid _ _
  next hres =>
  split
  · exact safe_invalid _ _
  next hmcp =>
  refine safe_carry (fun h hch _ => access_change h hch) hmem (fun _ => trivial) fun r t hmem => ?_
  rcases r with e | ⟨_ | _⟩
  · intro _ _ _ _ h
    cases h
  · exact safe_invalid _ _
  refine safe_carry (fun h hch _ => access_change h hch) hmem (fun _ => trivial) fun r t hmem => ?_
  rcases r with e | ⟨_ | _⟩
  · intro _ _ _ _ h
    cases h
  · exact safe_invalid _ _
  · intro _ _ _ _ h
    cases h
    exact ⟨not_not.1 hres, List.mem_filter.2 ⟨not_not.1 hmcp, by decide⟩, record, hmem, hdig, rfl,
      rfl, rfl, rfl⟩

theorem safe_validate (token : String) :
    MethodSafe S drawn (Validated S token) (S.validateAccessToken token) s := by
  refine fun s' _ _ => ⟨trivial, fun x r t _ hserve _ => ?_⟩
  dsimp only [OAuthService.server, OAuthService.serve] at hserve
  rcases transact_cases hserve with ⟨e, rfl, -⟩ | ⟨a, store, htx, rfl, rfl⟩
  · intro _ _ _ _ h
    cases h
  cases htx
  cases hfind : s'.store.accessTokens.items.find? (·.tokenDigest = S.sha256Hex token) with
  | none => exact fun _ _ _ => ⟨trivial, fun _ _ _ _ _ _ => safe_invalid _ _⟩
  | some record =>
    exact safe_carry (A := fun s => record ∈ s.store.accessTokens.items)
      (fun h hch _ => access_change h hch) (List.mem_of_find?_eq_some hfind) (fun _ => trivial)
      fun now t hmem => safe_validateFound now hmem (by simpa using List.find?_some hfind)

/-! ### refreshTokens -/

instance (e : ServiceError) : Decidable (isRevocation e) :=
  inferInstanceAs (Decidable (_ ∨ _))

theorem not_isRevocation {errorCode description : String} {statusCode : Nat}
    (h : errorCode ≠ "invalid_grant") : ¬isRevocation (oauthError errorCode description statusCode) := by
  rintro (heq | heq) <;> exact h (congrArg OAuthServerError.errorCode (ServiceError.oauth.inj heq))

theorem validateCanonicalResource_error {uri : Option String} {canonicalResource : String}
    {e : ServiceError} (h : S.validateCanonicalResource uri canonicalResource = .error e) :
    ¬isRevocation e := by
  have target (description : String) : ¬isRevocation (oauthError "invalid_target" description 400) :=
    not_isRevocation (by decide)
  unfold OAuthService.validateCanonicalResource at h
  split at h
  · cases h
    exact target _
  split at h
  · cases h
    exact target _
  split at h
  · cases h
    exact target _
  split at h
  · cases h
    exact target _
  split at h
  · cases h
    exact target _
  split at h
  · cases h
    exact target _
  split at h
  · cases h
    decide
  split at h
  · cases h
    exact target _
  · cases h

theorem narrowedScope_error {existing : RefreshTokenRecord} {scope : Option String} {e : ServiceError}
    (h : OAuthService.narrowedScope existing scope = .error e) : ¬isRevocation e := by
  unfold OAuthService.narrowedScope at h
  split at h
  · cases h
  · split at h
    · cases h
    · dsimp only at h
      split at h
      · cases h
        exact not_isRevocation (by decide)
      · cases h

/-- What the error of a revocation says of the store: `revoked` holds of the token's family. -/
def Revokes (S : OAuthService) (revoked : Grants → String → Prop) (q : RefreshInput)
    (a : Except ServiceError Reply) (s : Grants) : Prop :=
  ∀ e, a = .error e → isRevocation e →
    ∃ familyId scope, HasRefresh (S.sha256Hex q.refreshToken) familyId scope s ∧ revoked s familyId

/-- `revoked` holds of a family once its tokens have been revoked. -/
def FollowsRevocation (revoked : Grants → String → Prop) : Prop :=
  ∀ (s : Grants) (familyId : String) (nowMs : Int), s.family familyId ≠ [] →
    revoked { s with store := { s.store with refreshTokens := s.store.revoked familyId nowMs } }
      familyId

variable {revoked : Grants → String → Prop} {q : RefreshInput}

theorem safe_error {e : ServiceError} (h : ¬isRevocation e) :
    MethodSafe S drawn (Revokes S revoked q) (.done (.error e)) s := by
  intro _ heq hrev
  cases heq
  exact absurd hrev h

theorem safe_revokeThenFail {familyId scope : String} {now : Int} {e : ServiceError}
    (follows : FollowsRevocation revoked)
    (h : HasRefresh (S.sha256Hex q.refreshToken) familyId scope s) :
    MethodSafe S drawn (Revokes S revoked q) (OAuthService.revokeThenFail familyId now e) s := by
  intro s' hrely _
  have h' := (stable_of_change fun h hch _ => HasRefresh.change h hch).rely hrely h
  refine ⟨trivial, fun x r t hx hserve _ => ?_⟩
  have ht := h'.change (serve_change (S := S) (e := .revokeRefreshTokenFamily familyId now) hserve)
  dsimp only [OAuthService.server, OAuthService.serve] at hserve
  rcases transact_cases hserve with ⟨e, rfl, rfl⟩ | ⟨a, store, htx, rfl, rfl⟩
  · exact safe_error (by rintro (h | h) <;> cases h)
  · intro _ heq _
    cases heq
    cases htx
    refine ⟨familyId, scope, ht, ?_⟩
    obtain ⟨a, ha, -, hf, -⟩ := h'
    simp only [grantsNothing, List.append_nil]
    exact follows s' familyId now (List.ne_nil_of_mem (mem_family.2 ⟨ha, hf⟩))

theorem safe_rotate {existing : RefreshTokenRecord} {targetResource newScope : String} {now : Int}
    (h : HasRefresh (S.sha256Hex q.refreshToken) existing.familyId existing.scope s)
    (narrower : scopes newScope ⊆ scopes existing.scope) :
    MethodSafe S drawn (Revokes S revoked q) (S.rotate q targetResource newScope now) s := by
  have keep {s t : Grants} {e : Ask}
      (h : HasRefresh (S.sha256Hex q.refreshToken) existing.familyId existing.scope s)
      (hch : Change s e t) (_ : drawn s e) := HasRefresh.change h hch
  refine safe_carry keep h (fun _ => trivial) fun _ _ h => ?_
  refine safe_carry keep h (fun _ => trivial) fun _ _ h => ?_
  refine safe_carry keep h (fun _ => trivial) fun _ _ h => ?_
  refine safe_carry keep h (fun _ => trivial) fun _ _ h => ?_
  intro s' hrely _
  obtain ⟨t, ht, hdig, -, hscope⟩ := (stable_of_change keep).rely hrely h
  refine ⟨⟨t, ht, hdig, hscope ▸ narrower⟩, fun x r t' _ _ _ => ?_⟩
  rcases r with e | ⟨_ | _⟩ | out
  · exact safe_error (by rintro (h | h) <;> cases h)
  · exact safe_error (by decide)
  · exact safe_error (by decide)
  · intro _ heq
    cases heq

theorem safe_refreshFound {existing : RefreshTokenRecord} {now : Int}
    (follows : FollowsRevocation revoked)
    (h : HasRefresh (S.sha256Hex q.refreshToken) existing.familyId existing.scope s) :
    MethodSafe S drawn (Revokes S revoked q) (S.refreshFound q now existing) s := by
  have keep {s t : Grants} {e : Ask}
      (h : HasRefresh (S.sha256Hex q.refreshToken) existing.familyId existing.scope s)
      (hch : Change s e t) (_ : drawn s e) := HasRefresh.change h hch
  unfold OAuthService.refreshFound
  split
  · exact safe_revokeThenFail follows h
  split
  · exact safe_error (by decide)
  split
  · exact safe_error (by decide)
  split
  next e he => exact safe_error (validateCanonicalResource_error he)
  refine safe_carry keep h (fun _ => trivial) fun r _ h => ?_
  rcases r with e | userActive
  · exact safe_error (by rintro (h | h) <;> cases h)
  refine safe_carry keep h (fun _ => trivial) fun r _ h => ?_
  rcases r with e | workspaceValid
  · exact safe_error (by rintro (h | h) <;> cases h)
  dsimp only
  split
  · exact safe_revokeThenFail follows h
  split
  next e he => exact safe_error (narrowedScope_error he)
  next newScope hn => exact safe_rotate h (narrowedScope_subset hn)

theorem safe_refresh (follows : FollowsRevocation revoked) :
    MethodSafe S drawn (Revokes S revoked q) (S.refreshTokens q) s := by
  unfold OAuthService.refreshTokens
  split
  · exact safe_error (by decide)
  refine fun s' _ _ => ⟨trivial, fun x r t _ hserve _ => ?_⟩
  dsimp only [OAuthService.server, OAuthService.serve] at hserve
  rcases transact_cases hserve with ⟨e, rfl, -⟩ | ⟨a, store, htx, rfl, rfl⟩
  · exact safe_error (by rintro (h | h) <;> cases h)
  cases htx
  cases hfind : s'.store.findRefreshTokenByDigest (S.sha256Hex q.refreshToken) with
  | none => exact fun _ _ _ => ⟨trivial, fun _ _ _ _ _ _ => safe_error (by decide)⟩
  | some existing =>
    have h : HasRefresh (S.sha256Hex q.refreshToken) existing.familyId existing.scope
        ⟨s'.store, s'.granted ++ grantsNothing (some existing)⟩ :=
      ⟨existing, List.mem_of_find?_eq_some hfind, by simpa using List.find?_some hfind, rfl, rfl⟩
    exact safe_carry (fun h hch _ => HasRefresh.change h hch) h (fun _ => trivial)
      fun now t h => safe_refreshFound follows h

end methods

end Ceo.OAuth
