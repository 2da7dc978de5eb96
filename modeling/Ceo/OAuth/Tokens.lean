import Ceo.OAuth.Chain

/-!
# What the token endpoint guarantees

The properties of the grant chain, each over every state that any number of
requests to any number of server processes reach, their calls in any order.
Where two exchanges could draw one family id, the id is assumed fresh; nothing
else is assumed of what is drawn, of the digests or of the URL parser.
-/

namespace Ceo.OAuth

open Ceo.Lib

variable {S : OAuthService} {drawn : Grants → Ask → Prop}

/-- The service's state: the database with its grants, and the requests. -/
abbrev ServiceState :=
  Server.State Grants Ask Ask.Answer (Request × Except ServiceError Reply)

/-- What the answer to a request says of the store. -/
def Outcome (S : OAuthService) (revoked : Grants → String → Prop)
    (a : Request × Except ServiceError Reply) (s : Grants) : Prop :=
  match a.1 with
  | .exchange q => ∀ reply, a.2 = .ok reply → Exchangeable S q s
  | .refresh q => Revokes S revoked q a.2 s
  | .validate token => Validated S token a.2 s
  | .initiate _ | .createConsentNonce _ | .approveConsent _ _ _ | .denyConsent _ _ => True

/-- The others keep `revoked`. -/
def Lasts (drawn : Grants → Ask → Prop) (revoked : Grants → String → Prop) : Prop :=
  ∀ (s t : Grants) (e : Ask) (familyId : String), revoked s familyId → Change s e t → drawn s e →
    revoked t familyId

theorem outcome_stable (revoked : Grants → String → Prop) (lasts : Lasts drawn revoked) (a : Request × Except ServiceError Reply) :
    S.server.Stable (chained drawn).policy (Outcome S revoked a) := by
  refine stable_of_change fun {s t e} h hch hdrawn => ?_
  obtain ⟨q, r⟩ := a
  cases q with
  | exchange q => exact fun reply hr => (h reply hr).change hch
  | refresh q =>
    intro e he hrev
    obtain ⟨familyId, scope, hmem, hr⟩ := h e he hrev
    exact ⟨familyId, scope, hmem.change hch, lasts _ _ _ _ hr hch hdrawn⟩
  | validate token => exact fun u w sc res hr => (h u w sc res hr).change hch
  | initiate | createConsentNonce | approveConsent | denyConsent => trivial

theorem safe_handle (revoked : Grants → String → Prop) (follows : FollowsRevocation revoked) (q : Request) (s : Grants) :
    Safe S.server.toSurroundings (chained drawn) (Outcome S revoked) (S.server.handle q) s := by
  have hp : MethodSafe S drawn (fun r => Outcome S revoked (q, r)) (S.method q) s := by
    cases q with
    | initiate q => exact safe_of_uses (needless_initiate q) fun _ _ => trivial
    | createConsentNonce id => exact safe_of_uses (needless_createConsentNonce id) fun _ _ => trivial
    | approveConsent id nonce user =>
      exact safe_of_uses (needless_approveConsent id nonce user) fun _ _ => trivial
    | denyConsent id nonce => exact safe_of_uses (needless_denyConsent id nonce) fun _ _ => trivial
    | exchange q => exact safe_exchange q
    | refresh q => exact safe_refresh follows
    | validate token => exact safe_validate token
  exact hp.bind fun _ _ h => h

/-- Of no family anything is said. -/
def unsaid : Grants → String → Prop := fun _ _ => True

theorem reachable_chained {s : ServiceState} (hs : (S.server.under (drawing drawn)).Reachable s) :
    (Lineage s.store ∧ Once s.store) ∧
      ∀ a, .done a ∈ s.sessions → Outcome S unsaid a s.store := by
  obtain ⟨hI, hsafe⟩ := Server.reachable_safe (served S drawn)
    (outcome_stable unsaid fun _ _ _ _ _ _ _ => trivial)
    (fun q s _ => safe_handle unsaid (fun _ _ _ _ => trivial) q s) hs
  exact ⟨hI, fun a ha => hsafe _ ha⟩

/-! ### whatever is drawn -/

/-- **Every token was consented to.** An access token or a refresh token in the database has the
client, the user, the workspace and the resource of a request that was approved, and no scope that
the request had not; a refresh token's family stems from the code of that very request. -/
theorem tokens_consented {s : ServiceState}
    (hs : (S.server.under (drawing drawn)).Reachable s) :
    (∀ t ∈ s.store.store.accessTokens.items, AccessFrom s.store t) ∧
      ∀ t ∈ s.store.store.refreshTokens.items, RefreshFrom s.store t :=
  let L := (reachable_chained hs).1.1
  ⟨L.access, L.refresh⟩

/-- **Each request, code and refresh token is spent once.** No two grants were made for the same
one, and the database says of each that it has been spent. -/
theorem grants_spend_once {s : ServiceState}
    (hs : (S.server.under (drawing drawn)).Reachable s) :
    (s.store.granted.map Grant.spends).Nodup ∧
      ∀ g ∈ s.store.granted, g.spends.UsedUp s.store.store :=
  let O := (reachable_chained hs).1.2
  ⟨O.nodup, O.usedUp⟩

/-- **An exchange is bound to its request.** Tokens go to the client that asked for the consent, at
the address it asked with, and only for the verifier of its challenge. -/
theorem exchange_bound {s : ServiceState} (hs : (S.server.under (drawing drawn)).Reachable s)
    {q : ExchangeInput} {reply : Reply} (answered : .done (.exchange q, .ok reply) ∈ s.sessions) :
    ∃ r ∈ s.store.store.requests.items, r.decision = some .approved ∧ r.clientId = q.clientId ∧
      r.redirectUri = q.redirectUri ∧ r.codeChallenge = S.sha256Base64Url q.codeVerifier := by
  obtain ⟨⟨L, -⟩, hout⟩ := reachable_chained hs
  obtain ⟨c, hc, -, hclient, hredirect, hchallenge⟩ := hout _ answered reply rfl
  obtain ⟨r, hr, -, happ, hr', hc'⟩ := L.codes c hc
  exact ⟨r, hr, happ.decision, happ.client.trans hclient, hr'.trans hredirect,
    hc'.trans hchallenge⟩

/-- **A token that is accepted was consented to.** When `validateAccessToken` finds a token valid
for a user and a workspace, that user approved a request for that workspace and for the service's
own resource, with `mcp` and every other scope of the token in it. -/
theorem accepted_consented {s : ServiceState} (hs : (S.server.under (drawing drawn)).Reachable s)
    {token userId workspaceId scope resource : String}
    (answered : .done (.validate token,
      .ok (.validation (.valid userId workspaceId scope resource))) ∈ s.sessions) :
    ∃ r ∈ s.store.store.requests.items, r.decision = some .approved ∧ r.userId = some userId ∧
      r.workspaceId = some workspaceId ∧ r.resource = S.canonicalResource ∧
      "mcp" ∈ scopes scope ∧ scopes scope ⊆ scopes r.scope := by
  obtain ⟨⟨L, -⟩, hout⟩ := reachable_chained hs
  obtain ⟨hres, hmcp, t, ht, -, hu, hw, hr', hsc⟩ := hout _ answered _ _ _ _ rfl
  obtain ⟨r, hr, happ⟩ := L.access t ht
  exact ⟨r, hr, happ.decision, hu ▸ happ.user, hw ▸ happ.workspace,
    happ.resource.trans (hr'.trans hres), hmcp, hsc ▸ happ.scope⟩

/-! ### where families are drawn fresh -/

theorem families_reachable {s : ServiceState}
    (hs : (S.server.under (drawing freshFamily)).Reachable s) :
    Families s.store.store.refreshTokens.items := by
  have hserved : S.server.Served (drawing freshFamily) ((chained freshFamily).also
      fun s => Families s.store.refreshTokens.items) := by
    refine (served S freshFamily).also (fun s hs => ?_) ?_
    · obtain rfl : s = .empty := hs
      exact .empty
    · rintro s ⟨e, x⟩ t ⟨hI, F⟩ ⟨hneed, hfresh⟩ hx
      refine ⟨(served S freshFamily).kept s (e, x) t hI ⟨hneed, hfresh⟩ hx, ?_⟩
      obtain ⟨⟨r, u⟩, hserve, rfl⟩ := Option.map_eq_some_iff.1 hx
      exact F.change (serve_change hserve) hfresh
  exact (Server.reachable_safe hserved (Q := fun _ _ => True) (fun _ _ _ _ _ _ _ => trivial)
    (fun q s _ => ((safe_handle unsaid (fun _ _ _ _ => trivial) q s).mono
      fun _ _ _ => trivial).also) hs).1.2

/-- **A family has at most one token that can be rotated.** -/
theorem family_has_one_live {s : ServiceState}
    (hs : (S.server.under (drawing freshFamily)).Reachable s) (familyId : String) :
    ((s.store.family familyId).filter (·.consumedAtMs = none)).length ≤ 1 := by
  have F := families_reachable hs
  have hnodup : ((s.store.family familyId).filter (·.consumedAtMs = none)).Nodup :=
    ((s.store.store.refreshTokens.nodup.of_map _).filter _).filter _
  have hmem : ∀ t ∈ (s.store.family familyId).filter (·.consumedAtMs = none),
      (t ∈ s.store.store.refreshTokens.items ∧ t.familyId = familyId) ∧ t.consumedAtMs = none :=
    fun t ht => ⟨mem_family.1 (List.mem_filter.1 ht).1, of_decide_eq_true (List.mem_filter.1 ht).2⟩
  rcases hl : (s.store.family familyId).filter (·.consumedAtMs = none) with _ | ⟨t, _ | ⟨u, l⟩⟩
  · rw [hl]
    exact Nat.zero_le 1
  · rw [hl]
    exact le_rfl
  · rw [hl] at hnodup hmem
    obtain ⟨⟨ht, hft⟩, hct⟩ := hmem t (by simp)
    obtain ⟨⟨hu, hfu⟩, hcu⟩ := hmem u (by simp)
    have heq : t = u := F.live t ht u hu (hft.trans hfu.symm) hct hcu
    simp [heq] at hnodup

/-- **A revoked family is dead for good.** Once one token of a family is revoked, all are; and from
then on no request adds a token to the family, consumes one or brings one back. -/
theorem revoked_family_frozen {s t : ServiceState} {l : List (Server.Label Choice (Ask × Choice) Request)}
    (hs : (S.server.under (drawing freshFamily)).Reachable s)
    (hr : (S.server.under (drawing freshFamily)).Run s l t) {a : RefreshTokenRecord}
    (ha : a ∈ s.store.store.refreshTokens.items) (revoked : a.revokedAtMs ≠ none) :
    (∀ b ∈ s.store.family a.familyId, b.revokedAtMs ≠ none) ∧
      t.store.family a.familyId = s.store.family a.familyId := by
  have F := families_reachable hs
  have hall : ∀ b ∈ s.store.family a.familyId, b.revokedAtMs ≠ none := fun b hb =>
    F.whole a ha b (mem_family.1 hb).1 (mem_family.1 hb).2.symm revoked
  have hrev : s.store.Revoked a.familyId :=
    ⟨List.ne_nil_of_mem (mem_family.2 ⟨ha, rfl⟩), hall⟩
  refine ⟨hall, hr.rel (I := (S.server.under (drawing freshFamily)).Reachable)
    (R := fun s t => s.store.Revoked a.familyId →
      t.store.family a.familyId = s.store.family a.familyId)
    (fun _ _ => rfl) (fun {s t r} h h' hrev => ?_) (fun hs h => hs.step h) ?_ hs hrev⟩
  · have ht := h hrev
    have hrev' : t.store.Revoked a.familyId := by
      unfold Grants.Revoked
      rw [ht]
      exact hrev
    exact (h' hrev').trans ht
  · intro s b t hs hstep hrev
    rcases Server.step_needs (served S freshFamily)
      (outcome_stable unsaid fun _ _ _ _ _ _ _ => trivial)
      (fun q s _ => safe_handle unsaid (fun _ _ _ _ => trivial) q s) hs hstep with
      heq | ⟨e, x, r, -, hfresh, hserve⟩ | ⟨x, hx, -⟩
    · rw [heq]
    · exact (serve_change hserve).family_frozen hfresh hrev
    · exact hx.elim

/-- **A replay that is detected kills the family.** Whenever `refreshTokens` has answered that a
token was already consumed, or that its user or workspace is no longer active, every token of the
family of the token presented is revoked, then and in every later state. -/
theorem replay_revokes {s : ServiceState}
    (hs : (S.server.under (drawing freshFamily)).Reachable s) {q : RefreshInput} {e : ServiceError}
    (answered : .done (.refresh q, .error e) ∈ s.sessions) (detected : isRevocation e) :
    ∃ t ∈ s.store.store.refreshTokens.items, t.tokenDigest = S.sha256Hex q.refreshToken ∧
      ∀ u ∈ s.store.family t.familyId, u.revokedAtMs ≠ none := by
  have lasts : Lasts freshFamily Grants.Revoked := fun s t e familyId hrev hch hfresh => by
    unfold Grants.Revoked
    rw [hch.family_frozen hfresh hrev]
    exact hrev
  have follows : FollowsRevocation Grants.Revoked := by
    intro s familyId nowMs hne
    obtain ⟨a, ha⟩ := List.exists_mem_of_ne_nil _ hne
    obtain ⟨hmem, hf⟩ := mem_family.1 ha
    have hmem' := (Keyed.mem_update (s := s.store.refreshTokens)
      (p := fun t => t.familyId = familyId && t.revokedAtMs.isNone)
      (f := fun t => { t with revokedAtMs := some nowMs }) (by intro _; rfl)).2 ⟨a, hmem, rfl⟩
    refine ⟨List.ne_nil_of_mem (mem_family.2 ⟨hmem', ?_⟩), fun b hb => ?_⟩
    · split <;> exact hf
    · obtain ⟨hbmem, hbf⟩ := mem_family.1 hb
      obtain ⟨c, hc, rfl⟩ := (Keyed.mem_update (by intro _; rfl)).1 hbmem
      by_cases hp : (c.familyId = familyId && c.revokedAtMs.isNone) = true
      · rw [if_pos hp]
        exact nofun
      · rw [if_neg hp] at hbf ⊢
        simpa [hbf] using hp
  obtain ⟨-, hsafe⟩ := Server.reachable_safe (served S freshFamily)
    (outcome_stable _ lasts) (fun q s _ => safe_handle _ follows q s) hs
  obtain ⟨familyId, scope, ⟨t, ht, hdig, rfl, -⟩, -, hall⟩ := hsafe _ answered e rfl detected
  exact ⟨t, ht, hdig, hall⟩

/-! ### one chain, and a replay -/

namespace Sample

def resource : String := "https://ceo.example/mcp"

/-- SHA-256 of the texts below. -/
def sha256Hex (s : String) : String :=
  if s = "n" then "1b16b1df538ba12dc3f97edbb85caa7050d46c148134290feba80f8236c83db9"
  else if s = "oac_c" then "726b175884409bda78a9c792140aedbeebcb948ce186f758e5f6cc613c845802"
  else if s = "ceo_at_a1" then "a6635cc662206f35beac8fbd09e6182d5c67ce8f5302a2c60fbe896a72b17cfa"
  else if s = "ceo_rt_r1" then "fd42bc9256fdabe5398e05c24f439d5b7d1248dfbfe40f8d74534b5ec11eeb89"
  else if s = "ceo_at_a2" then "b81b5ec97ffcbe7f0da112ccef3f4a24ed100804e4c435e3d3e472e4bd55fc8c"
  else "44d40e5dca7bfedb36096a431073267ad9d54945f2c82af7c5e0a55b71147536"

def service : OAuthService where
  canonicalResource := resource
  authCodeTtlMs := 300000
  authRequestTtlMs := 600000
  accessTokenTtlMs := 3600000
  refreshTokenTtlMs := 2592000000
  sha256Hex := sha256Hex
  sha256Base64Url _ := "TJRIXgwhrmxBzh3-e2v6zupato5AokdvUCCOUm9QYIA"
  parseUrl _ := some ⟨"https://ceo.example", "/mcp", "", "", "", ""⟩

def exchange : ExchangeInput := ⟨"c", "r", "oac_c", "v", some resource⟩

def refresh : RefreshInput := ⟨"c", "ceo_rt_r1", some "mcp", some resource⟩

/-- The answers to the calls of one request. -/
def replies (i : Nat) (choices : List Choice) : List (Server.Label Choice (Ask × Choice) Request) :=
  choices.map (.reply i)

/-- A consent, an exchange, a refresh, a use, and the old refresh token once more. -/
def steps : List (Server.Label Choice (Ask × Choice) Request) :=
  .accept (.initiate ⟨"c", "r", "code", some "mcp offline_access", none,
      "TJRIXgwhrmxBzh3-e2v6zupato5AokdvUCCOUm9QYIA", "S256", some resource⟩) ::
    replies 0 [.client (.ok ⟨"C", ["r"]⟩), .ms 1000, .random "q", .commit, .commit] ++
  .accept (.createConsentNonce "oar_q") :: replies 1 [.random "n", .ms 1001, .commit] ++
  .accept (.approveConsent "oar_q" "n" "usr") ::
    replies 2 [.identity (.ok true), .memberships (.ok ["wsp"]), .identity (.ok true), .ms 1002,
      .random "c", .random "d", .commit, .commit] ++
  .accept (.exchange exchange) ::
    replies 3 [.ms 1003, .random "a1", .random "i1", .random "r1", .random "j1", .random "f",
      .commit] ++
  .accept (.refresh refresh) ::
    replies 4 [.commit, .ms 1004, .identity (.ok true), .identity (.ok true), .random "a2",
      .random "i2", .random "r2", .random "j2", .commit] ++
  .accept (.validate "ceo_at_a2") ::
    replies 5 [.commit, .ms 1005, .identity (.ok true), .identity (.ok true)] ++
  .accept (.refresh refresh) :: replies 6 [.commit, .ms 1006, .commit]

def answered (s : ServiceState) (i : Nat) : Option (Request × Except ServiceError Reply) :=
  match s.sessions[i]? with
  | some (.done a) => some a
  | _ => none

def isExchange : Request × Except ServiceError Reply → Bool
  | (.exchange q, .ok _) => q.redirectUri == "r"
  | _ => false

def isAccepted : Request × Except ServiceError Reply → Bool
  | (.validate token, .ok (.validation (.valid _ _ _ _))) => token == "ceo_at_a2"
  | _ => false

def isReplay : Request × Except ServiceError Reply → Bool
  | (.refresh q, .error e) => q.refreshToken == "ceo_rt_r1" && decide (isRevocation e)
  | _ => false

/-- What is checked of the end: the answers, the grants and the rows of the tokens. -/
def ended (s : ServiceState) : Bool :=
  (answered s 3).any isExchange && (answered s 5).any isAccepted && (answered s 6).any isReplay &&
  s.store.granted == [.code "oar_q" "cd_d", .family "cd_d" "fam_f", .rotation "rt_j1" "rt_j2"] &&
  s.store.store.accessTokens.items.map (·.userId) == ["usr", "usr"] &&
  s.store.store.refreshTokens.items.map (fun t => (t.id, t.scope, t.consumedAtMs, t.revokedAtMs)) ==
    [("rt_j1", "mcp offline_access", some 1004, some 1006), ("rt_j2", "mcp", none, some 1006)]

theorem mem_of_answered {s : ServiceState} {i : Nat} {a : Request × Except ServiceError Reply}
    (h : answered s i = some a) : .done a ∈ s.sessions := by
  unfold answered at h
  split at h
  next hi =>
    cases h
    exact List.mem_of_getElem? hi
  next => cases h

/-- What the end of the run is. -/
structure Ended (s : ServiceState) : Prop where
  reachable : (service.server.under (drawing freshFamily)).Reachable s
  exchange : ∃ a, .done a ∈ s.sessions ∧ isExchange a = true
  accepted : ∃ a, .done a ∈ s.sessions ∧ isAccepted a = true
  replay : ∃ a, .done a ∈ s.sessions ∧ isReplay a = true
  granted : s.store.granted =
    [.code "oar_q" "cd_d", .family "cd_d" "fam_f", .rotation "rt_j1" "rt_j2"]
  access : s.store.store.accessTokens.items.map (·.userId) = ["usr", "usr"]
  refresh : s.store.store.refreshTokens.items.map
    (fun t => (t.id, t.scope, t.consumedAtMs, t.revokedAtMs)) =
    [("rt_j1", "mcp offline_access", some 1004, some 1006), ("rt_j2", "mcp", none, some 1006)]

set_option maxRecDepth 20000 in
theorem ends : ∃ s, Ended s := by
  obtain ⟨s, hs, h⟩ := service.server.reachable_runUnder (P := drawing freshFamily)
    (show Grants.empty = .empty from rfl) steps ended (by decide +kernel)
  simp only [ended, Bool.and_eq_true, beq_iff_eq, Option.any_eq_true] at h
  obtain ⟨⟨⟨⟨⟨⟨a, ha, hx⟩, b, hb, hv⟩, c, hc, hr⟩, hg⟩, haccess⟩, hrefresh⟩ := h
  exact ⟨s, hs, ⟨a, mem_of_answered ha, hx⟩, ⟨b, mem_of_answered hb, hv⟩,
    ⟨c, mem_of_answered hc, hr⟩, hg, haccess, hrefresh⟩

theorem tokens_consented_run : ∃ s : ServiceState,
    s.store.store.accessTokens.items ≠ [] ∧ s.store.store.refreshTokens.items ≠ [] ∧
      (∀ t ∈ s.store.store.accessTokens.items, AccessFrom s.store t) ∧
      ∀ t ∈ s.store.store.refreshTokens.items, RefreshFrom s.store t := by
  obtain ⟨s, h⟩ := ends
  exact ⟨s, fun he => by simpa [he] using h.access, fun he => by simpa [he] using h.refresh,
    tokens_consented h.reachable⟩

theorem grants_spend_once_run : ∃ s : ServiceState, s.store.granted.length = 3 ∧
    (s.store.granted.map Grant.spends).Nodup ∧
      ∀ g ∈ s.store.granted, g.spends.UsedUp s.store.store := by
  obtain ⟨s, h⟩ := ends
  exact ⟨s, by rw [h.granted]; rfl, grants_spend_once h.reachable⟩

theorem exchange_bound_run : ∃ (s : ServiceState) (q : ExchangeInput), q.redirectUri = "r" ∧
    ∃ r ∈ s.store.store.requests.items, r.decision = some .approved ∧ r.clientId = q.clientId ∧
      r.redirectUri = q.redirectUri ∧
      r.codeChallenge = service.sha256Base64Url q.codeVerifier := by
  obtain ⟨s, h⟩ := ends
  obtain ⟨⟨q, r⟩, hmem, hx⟩ := h.exchange
  cases q with
  | exchange q =>
    rcases r with e | reply
    · cases hx
    · exact ⟨s, q, beq_iff_eq.1 hx, exchange_bound h.reachable hmem⟩
  | initiate | createConsentNonce | approveConsent | denyConsent | refresh | validate => cases hx

theorem accepted_consented_run : ∃ (s : ServiceState) (userId workspaceId scope : String),
    ∃ r ∈ s.store.store.requests.items, r.decision = some .approved ∧ r.userId = some userId ∧
      r.workspaceId = some workspaceId ∧ r.resource = service.canonicalResource ∧
      "mcp" ∈ scopes scope ∧ scopes scope ⊆ scopes r.scope := by
  obtain ⟨s, h⟩ := ends
  obtain ⟨⟨q, r⟩, hmem, hx⟩ := h.accepted
  cases q with
  | validate token =>
    rcases r with e | reply
    · cases hx
    · cases reply with
      | validation v =>
        cases v with
        | valid u w scope res => exact ⟨s, u, w, scope, accepted_consented h.reachable hmem⟩
        | invalid => cases hx
      | initiated | nonce | approved | denied | tokens => cases hx
  | initiate | createConsentNonce | approveConsent | denyConsent | refresh | exchange => cases hx

theorem family_has_one_live_run : ∃ s : ServiceState,
    s.store.store.refreshTokens.items.length = 2 ∧
      ((s.store.family "fam_f").filter (·.consumedAtMs = none)).length ≤ 1 := by
  obtain ⟨s, h⟩ := ends
  exact ⟨s, by simpa using congrArg List.length h.refresh,
    family_has_one_live h.reachable "fam_f"⟩

/-- One more request comes in after the replay. -/
theorem revoked_family_frozen_run : ∃ (s t : ServiceState) (a : RefreshTokenRecord),
    t.sessions.length = s.sessions.length + 1 ∧ a.revokedAtMs = some 1006 ∧
      (∀ b ∈ s.store.family a.familyId, b.revokedAtMs ≠ none) ∧
      t.store.family a.familyId = s.store.family a.familyId := by
  obtain ⟨s, h⟩ := ends
  have hr := h.refresh
  rcases hitems : s.store.store.refreshTokens.items with _ | ⟨a, l⟩
  · simp [hitems] at hr
  · simp only [hitems, List.map_cons, List.cons.injEq, Prod.mk.injEq] at hr
    have hstep : (service.server.under (drawing freshFamily)).Run s [.accept (.refresh refresh)]
        { s with sessions := s.sessions ++ [service.server.handle (.refresh refresh)] } :=
      .single ⟨trivial, rfl⟩
    exact ⟨s, _, a, by simp, hr.1.2.2.2, revoked_family_frozen h.reachable hstep (by simp [hitems])
      (by rw [hr.1.2.2.2]; exact nofun)⟩

theorem replay_revokes_run : ∃ (s : ServiceState) (q : RefreshInput), q.refreshToken = "ceo_rt_r1" ∧
    ∃ t ∈ s.store.store.refreshTokens.items,
      t.tokenDigest = service.sha256Hex q.refreshToken ∧
      ∀ u ∈ s.store.family t.familyId, u.revokedAtMs ≠ none := by
  obtain ⟨s, h⟩ := ends
  obtain ⟨⟨q, r⟩, hmem, hx⟩ := h.replay
  cases q with
  | refresh q =>
    rcases r with e | reply
    · simp only [isReplay, Bool.and_eq_true, beq_iff_eq, decide_eq_true_eq] at hx
      exact ⟨s, q, hx.1, replay_revokes h.reachable hmem hx.2⟩
    · cases hx
  | initiate | createConsentNonce | approveConsent | denyConsent | exchange | validate => cases hx

end Sample

end Ceo.OAuth
