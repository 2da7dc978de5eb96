import Mathlib.Algebra.GroupWithZero.Nat
import Ceo.Connector.Relogin

/-!
# The login that recovers

From a state of the files that is not split, a login that is not disturbed, and
whose enrollment is approved, ends with a profile for its server.
-/

namespace Ceo.Connector.Login

open Ceo.Lib
open ConfigMigration (LocalConfig configSchemaVersion)

/-! ### an enrollment that is granted -/

namespace Server

/-- There is no credential with the reserved id. -/
def Free (server : Server) (e : DeviceEnrollment) : Prop :=
  server.credentials.find? (·.id == e.reservedCredentialId) = none

/-- The credential of an enrollment is in force. -/
def Live (env : Env) (now : Int) (server : Server) (e : DeviceEnrollment) (userId : String) : Prop :=
  ∃ c, server.credentials.find? (·.id == e.reservedCredentialId) = some c ∧ c.userId = userId ∧
    c.deviceId = e.reservedDeviceId ∧ c.secretDigest = e.credentialSecretDigest ∧
    c.revoked = false ∧ now < c.expiresAtMs ∧ env.isUserActive userId = true

/-- The enrollment of a session has not expired; it may be approved, or it is. -/
def Open (env : Env) (now : Int) (server : Server) (s : PendingEnrollmentSession) : Prop :=
  ∃ e, server.enrollments.find? (·.deviceCode == s.deviceCode) = some e ∧ now ≤ e.expiresAtMs ∧
    match e.state with
    | .pending => server.Free e
    | .approved userId =>
      env.isUserActive userId = true ∧ (server.Free e ∨ server.Live env now e userId)
    | .consumed => ∃ userId, server.Live env now e userId
    | .denied => False

end Server

section server

variable {env : Env} {origin : String} {now : Int} {server : Server} {s : PendingEnrollmentSession}

theorem identity_of_find {c : CredentialRecord} {id secret : String}
    (hfind : server.credentials.find? (·.id == id) = some c) (hrevoked : c.revoked = false)
    (hexpires : now < c.expiresAtMs) (hactive : env.isUserActive c.userId = true)
    (hdigest : env.sha256 secret = c.secretDigest) :
    server.identity env now id secret = some ⟨c.userId, c.deviceId, c.id, c.expiresAtMs⟩ := by
  unfold Server.identity
  rw [hfind]
  dsimp only
  rw [hrevoked, hactive, hdigest, decide_eq_false (by omega)]
  simp

/-- The identity of the credential that an enrollment has become. -/
theorem identity_of_live {e : DeviceEnrollment} {userId : String} (h : server.Live env now e userId)
    (hdev : e.reservedDeviceId = s.reservedDeviceId)
    (hcred : e.reservedCredentialId = s.reservedCredentialId)
    (hdigest : e.credentialSecretDigest = env.sha256 s.secret) :
    ∃ ident, server.identity env now s.reservedCredentialId s.secret = some ident ∧
      ident.deviceId = s.reservedDeviceId ∧ ident.credentialId = s.reservedCredentialId := by
  obtain ⟨c, hfind, huser, hdevice, hsecret, hrevoked, hexpires, hactive⟩ := h
  have hid : c.id = e.reservedCredentialId := by simpa using List.find?_some hfind
  rw [hcred] at hfind
  exact ⟨_, identity_of_find hfind hrevoked hexpires (by rw [huser, hactive])
    (by rw [hsecret, hdigest]), by rw [hdevice, hdev], by rw [hid, hcred]⟩

/-- A new credential is in force. -/
theorem live_append (now : Int) {e : DeviceEnrollment} {userId : String} (hfree : server.Free e)
    (hactive : env.isUserActive userId = true) (enrollments : List DeviceEnrollment) :
    Server.Live env now ⟨enrollments, server.credentials ++ [⟨e.reservedCredentialId,
      e.reservedDeviceId, userId, e.credentialSecretDigest, now + deviceCredentialTtlMs, false⟩]⟩
      e userId := by
  refine ⟨⟨e.reservedCredentialId, e.reservedDeviceId, userId, e.credentialSecretDigest,
    now + deviceCredentialTtlMs, false⟩, ?_, rfl, rfl, rfl, rfl, ?_, hactive⟩
  · rw [List.find?_append, show server.credentials.find? _ = none from hfree]
    simp
  · have : 0 < deviceCredentialTtlMs := by decide
    show now < now + deviceCredentialTtlMs
    omega

/-- A poll of an enrollment that is granted, or that is to be. -/
theorem token_open (hopen : server.Open env now s) (hh : server.Holds env s) :
    (∃ e, server.enrollments.find? (·.deviceCode == s.deviceCode) = some e ∧ e.state = .pending ∧
      server.token env now s.deviceCode = (.pending, server)) ∨
    ((server.token env now s.deviceCode).1 =
        .approved s.reservedDeviceId s.reservedCredentialId ∧
      ∃ ident, (server.token env now s.deviceCode).2.identity env now s.reservedCredentialId
          s.secret = some ident ∧
        ident.deviceId = s.reservedDeviceId ∧ ident.credentialId = s.reservedCredentialId) := by
  obtain ⟨e, hfind, hexpires, hstate⟩ := hopen
  have hcode : e.deviceCode = s.deviceCode := by simpa using List.find?_some hfind
  obtain ⟨hdev, hcred, hdigest⟩ := hh e (List.mem_of_find?_eq_some hfind) hcode
  unfold Server.token
  rw [hfind]
  dsimp only
  rw [if_neg (by omega)]
  cases hst : e.state with
  | pending => exact .inl ⟨e, rfl, hst, rfl⟩
  | denied =>
    rw [hst] at hstate
    exact hstate.elim
  | approved userId =>
    rw [hst] at hstate
    obtain ⟨hactive, hfree | hlive⟩ := hstate
    · refine .inr ?_
      have hfinal : server.finalizeDeviceEnrollment env now e userId = some
          { server with credentials := server.credentials ++ [⟨e.reservedCredentialId,
            e.reservedDeviceId, userId, e.credentialSecretDigest, now + deviceCredentialTtlMs,
            false⟩] } := by
        unfold Server.finalizeDeviceEnrollment
        rw [hactive, show server.credentials.find? _ = none from hfree]
        rfl
      dsimp only
      rw [hfinal]
      dsimp only
      rw [hdev, hcred]
      have hlive := live_append now hfree hactive
        (server.setState s.deviceCode .consumed).enrollments
      rw [hdev, hcred] at hlive
      exact ⟨rfl, identity_of_live hlive hdev hcred hdigest⟩
    · refine .inr ?_
      obtain ⟨c, hc, huser, hdevice, hsecret, -⟩ := id hlive
      have hfinal : server.finalizeDeviceEnrollment env now e userId = some server := by
        unfold Server.finalizeDeviceEnrollment
        rw [hactive, hc]
        simp [huser, hdevice, hsecret]
      dsimp only
      rw [hfinal]
      dsimp only
      rw [hdev, hcred]
      exact ⟨rfl, identity_of_live (e := e) hlive hdev hcred hdigest⟩
  | consumed =>
    rw [hst] at hstate
    obtain ⟨userId, hlive⟩ := hstate
    refine .inr ?_
    obtain ⟨c, hc, -, hdevice, -⟩ := id hlive
    have hid : c.id = e.reservedCredentialId := by simpa using List.find?_some hc
    obtain ⟨d, hd⟩ : ∃ d, server.credentials.find? (·.deviceId == e.reservedDeviceId) = some d := by
      refine Option.isSome_iff_exists.1 (List.find?_isSome.2 ⟨c, List.mem_of_find?_eq_some hc, ?_⟩)
      simpa using hdevice
    have hddev : d.deviceId = e.reservedDeviceId := by simpa using List.find?_some hd
    dsimp only
    rw [hd, hc]
    dsimp only
    rw [hddev, hid, hdev, hcred]
    exact ⟨rfl, identity_of_live (e := e) hlive hdev hcred hdigest⟩

theorem find_setState (code code' : String) (state : EnrollmentState) :
    (server.setState code state).enrollments.find? (·.deviceCode == code') =
      (server.enrollments.find? (·.deviceCode == code')).map fun e =>
        if e.deviceCode = code then { e with state := state } else e := by
  unfold Server.setState
  rw [List.find?_map]
  congr 2
  funext e
  simp only [Function.comp_apply]
  split_ifs <;> rfl

/-- An approval leaves what is open open. -/
theorem open_approve {code userId : String} (h : server.Open env now s) :
    (server.approve env now code userId).Open env now s := by
  unfold Server.approve
  split
  · exact h
  · next e₀ hfind₀ =>
    split_ifs with hcond
    · obtain ⟨e, hfind, hexpires, hstate⟩ := h
      have hcode : e.deviceCode = s.deviceCode := by simpa using List.find?_some hfind
      by_cases hsame : s.deviceCode = code
      · rw [hsame, hfind₀] at hfind
        obtain rfl := Option.some.inj hfind
        rw [hcond.1] at hstate
        refine ⟨{ e₀ with state := .approved userId }, ?_, hexpires, hcond.2.2, .inl hstate⟩
        rw [find_setState, hsame, hfind₀, Option.map_some, if_pos (hcode.trans hsame)]
      · refine ⟨e, ?_, hexpires, hstate⟩
        rw [find_setState, hfind, Option.map_some, if_neg]
        rwa [hcode]
    · exact h

/-- A new enrollment is open. -/
theorem open_newSession (fair : env.Fair origin) :
    (server.begin env now).Open env now (newSession env origin now server) := by
  refine ⟨⟨(env.draw server).deviceCode, (env.draw server).deviceId, (env.draw server).credentialId,
    env.sha256 (env.draw server).secret, .pending, now + deviceEnrollmentTtlMs⟩, ?_, ?_, ?_⟩
  · show (_ ++ [_]).find? _ = _
    rw [List.find?_append, List.find?_eq_none.2, Option.none_or]
    · exact List.find?_cons_of_pos (by simp [newSession])
    · intro e he
      simpa [newSession] using fair.newCode server e (List.mem_filter.1 he).1
  · have : 0 < deviceEnrollmentTtlMs := by decide
    show now ≤ now + deviceEnrollmentTtlMs
    omega
  · refine List.find?_eq_none.2 fun c hc => ?_
    simpa using fair.newCredential server c hc

theorem newSession_not_expired : (newSession env origin now server).isExpired now = false := by
  have : 0 < deviceEnrollmentTtlMs / 1000 * 1000 := by decide
  refine decide_eq_false ?_
  show ¬ now + deviceEnrollmentTtlMs / 1000 * 1000 ≤ now
  omega

end server

/-! ### a login that is not disturbed -/

/-- The files of two servers, which every later login refuses. -/
def Disk.Split (origin : String) (d : Disk) : Prop :=
  (∃ cfg, d.config = .good cfg ∧ cfg.serverUrl ≠ origin ∧ d.credential ≠ .missing) ∨
  ∃ c s, d.credential = .good c ∧ c.serverOrigin ≠ origin ∧ d.enrollment = .good s

/-- The config, if there is one, names the server. -/
def Disk.Named (origin : String) (d : Disk) : Prop :=
  ∀ cfg, d.config = .good cfg → cfg.serverUrl = origin

/-- There is a credential of the server, in force, and no config of another one. -/
def LoggedIn (env : Env) (origin : String) (w : World) (c : DeviceCredential) : Prop :=
  w.disk.credential = .good c ∧ c.serverOrigin = origin ∧ w.server.Knows env w.now c ∧
    w.disk.Named origin

/-- What brings an undisturbed login to its end. -/
def OnTrack (env : Env) (origin : String) (w : World) : Prop :=
  match w.stage with
  | .identify c session => c.serverOrigin = origin ∧ w.disk.Named origin ∧
      ∀ s, session = some s → s.isExpired w.now = false → ¬ w.server.Knows env w.now c →
        w.server.Open env w.now s
  | .forget c | .cleanUp c => LoggedIn env origin w c
  | .discard | .begin => True
  | .save s | .wait s _ | .poll s _ => s.isExpired w.now = false ∧ w.server.Open env w.now s
  | .verify s => ∃ ident,
      w.server.identity env w.now s.reservedCredentialId s.secret = some ident ∧
        ident.deviceId = s.reservedDeviceId ∧ ident.credentialId = s.reservedCredentialId
  | .saveCredential _ c => c.serverOrigin = origin ∧ w.server.Knows env w.now c
  | .saveConfig _ c => w.disk.credential = .good c ∧ c.serverOrigin = origin ∧
      w.server.Knows env w.now c
  | .done r => (∃ o, r = .ok o) ∧ ∃ c, LoggedIn env origin w c
  | .idle | .dismiss _ => False

/-- Nothing fails and no time is lost; the user may approve. -/
def Event.IsQuiet : Event → Bool
  | .proceed | .slow | .approve _ _ => true
  | _ => false

/-- Should the pending enrollment be resumed, it is granted or will be. -/
def Granting (env : Env) (origin : String) (w : World) : Prop :=
  ∀ s, w.disk.enrollment = .good s → s.serverOrigin = origin → s.isExpired w.now = false →
    w.Dead env origin → w.server.Open env w.now s

section

variable {env : Env} {origin : String} {w : World}

theorem onTrack_resolve {session : Option PendingEnrollmentSession}
    (h : ∀ s, session = some s → s.serverOrigin = origin → s.isExpired w.now = false →
      w.server.Open env w.now s) :
    OnTrack env origin { w with stage := resolve origin w.now session } := by
  unfold OnTrack
  rcases resolve_cases origin w.now session with ⟨s, hs, ho, hexp, hr⟩ |
    ⟨s, -, -, hr⟩ | ⟨-, hr⟩ <;> simp only [hr]
  exact ⟨hexp, h s hs ho hexp⟩

theorem start_split {d : Disk} (now : Int) (h : d.Split origin)
    (hown : ∀ c s, d.credential = .good c → d.enrollment = .good s → s.serverOrigin = origin) :
    ∃ e, start origin now d = .done (.error e) := by
  by_contra hno
  obtain ⟨hb, hcases⟩ := start_cases (not_exists.1 hno)
  rcases h with ⟨cfg, hcfg, hne, hcred⟩ | ⟨c, s, hc, hne, hs⟩
  · exact hcred ((boundElsewhere_ok.1 hb).2 cfg hcfg hne).2.1
  · have ho := hown c s hc hs
    rcases hcases with ⟨c', s', hc', hs', heq, -⟩ | ⟨c', -, hs', -⟩ | ⟨c', -, hs', -⟩ |
      ⟨session, hc', -⟩
    · rw [hc] at hc'
      rw [hs] at hs'
      obtain rfl := File.good.inj hc'
      obtain rfl := File.good.inj hs'
      exact hne (heq.trans ho)
    · rw [hs] at hs'
      cases hs'
    · rw [hs] at hs'
      cases hs'
    · rw [hc] at hc'
      cases hc'

/-- A login on files that are not split is on its track. -/
theorem onTrack_start (h : Sound env origin w) (hsplit : ¬ w.disk.Split origin)
    (hgrant : Granting env origin w) :
    OnTrack env origin { w with stage := start origin w.now w.disk } := by
  have hb : boundElsewhere origin w.disk = .ok () := by
    refine boundElsewhere_ok.2 ⟨h.config, fun cfg hcfg hne => ?_⟩
    obtain ⟨ht, ha, ho⟩ := h.unbound cfg hcfg hne
    exact ⟨ht, by_contra fun hcred => hsplit (.inl ⟨cfg, hcfg, hne, hcred⟩), ha, ho⟩
  have named {c} (hc : w.disk.credential = .good c) : w.disk.Named origin := fun cfg hcfg =>
    by_contra fun hne => hsplit (.inl ⟨cfg, hcfg, hne, by rw [hc]; exact fun h => by cases h⟩)
  unfold start
  rw [hb]
  dsimp only
  cases hc : w.disk.credential with
  | bad => exact absurd hc h.credential
  | missing =>
    have hdead : w.Dead env origin := fun c hc' => by
      rw [hc] at hc'
      cases hc'
    cases hs : w.disk.enrollment with
    | bad => exact absurd hs h.enrollment
    | missing => exact onTrack_resolve fun s hs' => by cases hs'
    | good s =>
      refine onTrack_resolve fun s' hs' ho hexp => ?_
      obtain rfl := Option.some.inj hs'
      exact hgrant s hs ho hexp hdead
  | good c =>
    cases hs : w.disk.enrollment with
    | bad => exact absurd hs h.enrollment
    | missing =>
      by_cases ho : c.serverOrigin = origin
      · simp only [File.load, ho, if_true, OnTrack]
        exact ⟨trivial, named hc, fun s hs' => by cases hs'⟩
      · simp only [File.load, ho, if_false, OnTrack]
    | good s =>
      have hso := h.own c s hc hs
      have hco : c.serverOrigin = origin :=
        by_contra fun hne => hsplit (.inr ⟨c, s, hc, hne, hs⟩)
      simp only [File.load, hco, hso, ne_eq, not_true_eq_false, if_false, OnTrack]
      refine ⟨trivial, named hc, fun s' hs' hexp hk => ?_⟩
      obtain rfl := Option.some.inj hs'
      refine hgrant s hs hso hexp fun c' hc' _ => ?_
      rw [hc] at hc'
      rwa [← File.good.inj hc']

theorem onTrack_proceed (fair : env.Fair origin) (h : Sound env origin w)
    (hst : StageSound env origin w) (ht : OnTrack env origin w) :
    OnTrack env origin (proceed env origin w) := by
  unfold OnTrack at ht
  unfold StageSound at hst
  unfold proceed
  cases hw : w.stage with
  | idle | dismiss =>
    rw [hw] at ht
    exact ht.elim
  | done r =>
    rw [hw] at ht
    unfold OnTrack
    rw [hw]
    exact ht
  | identify c session =>
    rw [hw] at ht hst
    obtain ⟨ho, hnamed, hopen⟩ := ht
    obtain ⟨hc, hs⟩ := hst
    dsimp only
    rcases identified_cases env origin w c session
      with ⟨hne, -⟩ | ⟨-, hk, ⟨-, he⟩ | ⟨s, rfl, ⟨-, -, he⟩ | ⟨hids, -⟩⟩⟩ | ⟨-, hk, he⟩
    · exact absurd ho hne
    · simp only [OnTrack, he]
      exact ⟨⟨_, rfl⟩, c, hc, ho, hk, hnamed⟩
    · simp only [OnTrack, he]
      exact ⟨hc, ho, hk, hnamed⟩
    · exact absurd (h.coherent c s hc hs ho hk) hids
    · rw [he]
      exact onTrack_resolve fun s hs' _ hexp => hopen s hs' hexp hk
  | forget c =>
    rw [hw] at ht
    exact ⟨⟨_, rfl⟩, c, ht⟩
  | discard => trivial
  | begin => exact ⟨newSession_not_expired, open_newSession fair⟩
  | save s =>
    rw [hw] at ht
    exact ht
  | wait s interval =>
    rw [hw] at ht
    unfold OnTrack
    dsimp only
    rw [ht.1, if_neg Bool.false_ne_true]
    exact ht
  | poll s interval =>
    rw [hw] at ht hst
    unfold OnTrack
    dsimp only
    rcases token_open ht.2 (h.known s hst.1 hst.2) with ⟨e, -, -, heq⟩ | ⟨heq, hident⟩
    · rw [heq]
      exact ht
    · rw [heq]
      simp only [polled, ne_eq, not_true_eq_false, or_self, if_false]
      exact hident
  | verify s =>
    rw [hw] at ht hst
    obtain ⟨ident, hident, hdev, hcred⟩ := ht
    have hv : verified env w s = .saveCredential s ⟨s.serverOrigin, ident.userId, ident.deviceId,
        ident.credentialId, s.secret, ident.expiresAtMs⟩ := by
      unfold verified
      rw [hident]
      dsimp only
      rw [if_neg (by simp [hdev, hcred])]
    simp only [OnTrack, hv]
    exact ⟨hst.2, ident, by rw [hcred]; exact hident, rfl, rfl⟩
  | saveCredential s c =>
    rw [hw] at ht
    exact ⟨rfl, ht⟩
  | saveConfig s c =>
    rw [hw] at ht hst
    cases hload : w.disk.config.load with
    | error e =>
      refine absurd ?_ h.config
      cases hcfg : w.disk.config with
      | bad => rfl
      | missing | good =>
        rw [hcfg] at hload
        cases hload
    | ok cfg =>
      refine ⟨ht.1, ht.2.1, ht.2.2, fun cfg' hcfg' => ?_⟩
      rw [← File.good.inj hcfg']
      exact hst
  | cleanUp c =>
    rw [hw] at ht
    exact ⟨⟨_, rfl⟩, c, ht⟩

/-- An approval. -/
theorem onTrack_approve (ht : OnTrack env origin w) (code userId : String) :
    OnTrack env origin { w with server := w.server.approve env w.now code userId } := by
  have hk (c : DeviceCredential) : (w.server.approve env w.now code userId).Knows env w.now c ↔
      w.server.Knows env w.now c := knows_congr approve_credentials
  have logged {c} (h : LoggedIn env origin w c) :
      LoggedIn env origin { w with server := w.server.approve env w.now code userId } c :=
    ⟨h.1, h.2.1, (hk c).2 h.2.2.1, h.2.2.2⟩
  unfold OnTrack at ht ⊢
  dsimp only
  cases hw : w.stage with
  | idle | dismiss =>
    rw [hw] at ht
    exact ht
  | identify c session =>
    rw [hw] at ht
    exact ⟨ht.1, ht.2.1, fun s hs hexp hno =>
      open_approve (ht.2.2 s hs hexp fun hknow => hno ((hk c).2 hknow))⟩
  | forget c | cleanUp c =>
    rw [hw] at ht
    exact logged ht
  | discard | begin => trivial
  | save s | wait s _ | poll s _ =>
    rw [hw] at ht
    exact ⟨ht.1, open_approve ht.2⟩
  | verify s =>
    rw [hw] at ht
    obtain ⟨ident, hident, hids⟩ := ht
    exact ⟨ident, by rw [identity_congr approve_credentials]; exact hident, hids⟩
  | saveCredential s c =>
    rw [hw] at ht
    exact ⟨ht.1, (hk c).2 ht.2⟩
  | saveConfig s c =>
    rw [hw] at ht
    exact ⟨ht.1, ht.2.1, (hk c).2 ht.2.2⟩
  | done r =>
    rw [hw] at ht
    obtain ⟨hok, c, hc⟩ := ht
    exact ⟨hok, c, logged hc⟩

theorem onTrack_step (fair : env.Fair origin) (h : Sound env origin w)
    (hst : StageSound env origin w) (ht : OnTrack env origin w) {a : Event}
    (ha : a.IsQuiet = true) : OnTrack env origin (step env origin w a) := by
  cases a with
  | login | fail | crash | tick => cases ha
  | proceed => exact onTrack_proceed fair h hst ht
  | approve code userId => exact onTrack_approve ht code userId
  | slow =>
    unfold step
    cases hw : w.stage with
    | poll s interval =>
      unfold OnTrack at ht
      rw [hw] at ht
      exact ht
    | idle | done | identify | forget | discard | begin | save | wait | dismiss | verify
    | saveCredential | saveConfig | cleanUp => exact ht

/-! ### its end -/

/-- How far a login is from its end. -/
def Stage.rank : Stage → Nat
  | .identify .. => 10
  | .discard => 9
  | .begin => 8
  | .save _ => 7
  | .wait .. => 6
  | .poll .. => 5
  | .verify _ => 4
  | .saveCredential .. => 3
  | .saveConfig .. => 2
  | .forget _ | .cleanUp _ => 1
  | .dismiss _ | .idle | .done _ => 0

/-- A quiet continuation ends the login. -/
def Finishes (env : Env) (origin : String) (w : World) : Prop :=
  ∃ es : List Event, (∀ a ∈ es, a.IsQuiet = true) ∧
    ∃ o, (es.foldl (step env origin) w).stage = .done (.ok o)

theorem Finishes.cons {a : Event} (ha : a.IsQuiet = true)
    (h : Finishes env origin (step env origin w a)) : Finishes env origin w := by
  obtain ⟨es, hes, hend⟩ := h
  exact ⟨a :: es, List.forall_mem_cons.2 ⟨ha, hes⟩, hend⟩

theorem rank_resolve (origin : String) (now : Int) (session : Option PendingEnrollmentSession) :
    (resolve origin now session).rank ≤ 9 := by
  rcases resolve_cases origin now session with ⟨s, -, -, -, hr⟩ | ⟨s, -, -, hr⟩ |
    ⟨-, hr⟩ <;> rw [hr] <;> simp [Stage.rank]

theorem rank_identified {c : DeviceCredential} {session : Option PendingEnrollmentSession} :
    (identified env origin w c session).rank ≤ 9 := by
  rcases identified_cases env origin w c session
    with ⟨-, he⟩ | ⟨-, -, ⟨-, he⟩ | ⟨s, -, ⟨-, -, he⟩ | ⟨-, e, he⟩⟩⟩ | ⟨-, -, he⟩
  · simp [he, Stage.rank]
  · simp [he, Stage.rank]
  · simp [he, Stage.rank]
  · simp [he, Stage.rank]
  · rw [he]
    exact rank_resolve origin w.now session

/-- A poll that is granted. -/
theorem proceed_granted {s : PendingEnrollmentSession} {interval : Nat}
    (hw : w.stage = .poll s interval)
    (h : (w.server.token env w.now s.deviceCode).1 =
      .approved s.reservedDeviceId s.reservedCredentialId) :
    (proceed env origin w).stage = .verify s := by
  unfold proceed
  rw [hw]
  simp [h, polled]

/-- Every step but a poll brings the end nearer. -/
theorem rank_proceed (hdone : ∀ r, w.stage ≠ .done r) (ht : OnTrack env origin w)
    (hpoll : ∀ s interval, w.stage ≠ .poll s interval) :
    (proceed env origin w).stage.rank < w.stage.rank := by
  unfold OnTrack at ht
  unfold proceed
  cases hw : w.stage with
  | idle | dismiss =>
    rw [hw] at ht
    exact ht.elim
  | done r => exact absurd hw (hdone r)
  | poll s interval => exact absurd hw (hpoll s interval)
  | identify c session => exact Nat.lt_succ_of_le rank_identified
  | forget | discard | begin | save | saveCredential | cleanUp => simp [Stage.rank]
  | wait s interval =>
    dsimp only
    split_ifs <;> simp [Stage.rank]
  | verify s =>
    dsimp only
    rcases verified_cases env w s with ⟨e, he⟩ | ⟨ident, -, -, -, he⟩ <;>
      simp [he, Stage.rank]
  | saveConfig s c =>
    dsimp only
    cases w.disk.config.load <;> simp [Stage.rank]

/-- By induction on the rank; a poll waits for the approval. -/
theorem finishes_of_rank (fair : env.Fair origin) (n : Nat) :
    ∀ {w : World}, Sound env origin w → StageSound env origin w → OnTrack env origin w →
      w.stage.rank ≤ n → Finishes env origin w := by
  induction n with
  | zero =>
    intro w _ _ ht hrank
    unfold OnTrack at ht
    cases hw : w.stage with
    | done r =>
      rw [hw] at ht
      obtain ⟨⟨o, rfl⟩, -⟩ := ht
      exact ⟨[], by simp, o, hw⟩
    | idle | dismiss =>
      rw [hw] at ht
      exact ht.elim
    | identify | forget | discard | begin | save | wait | poll | verify | saveCredential
    | saveConfig | cleanUp =>
      rw [hw] at hrank
      cases hrank
  | succ n ih =>
    intro w h hst ht hrank
    have next {v : World} (h : Sound env origin v) (hst : StageSound env origin v)
        (ht : OnTrack env origin v) (hlt : (proceed env origin v).stage.rank ≤ n) :
        Finishes env origin v := by
      obtain ⟨h', hst'⟩ := sound_proceed fair h hst
      exact Finishes.cons (a := .proceed) rfl
        (ih h' hst' (onTrack_proceed fair h hst ht) hlt)
    by_cases hdone : ∃ r, w.stage = .done r
    · obtain ⟨r, hr⟩ := hdone
      refine ih h hst ht ?_
      rw [hr]
      exact Nat.zero_le n
    · by_cases hpoll : ∃ s interval, w.stage = .poll s interval
      · obtain ⟨s, interval, hw⟩ := hpoll
        have hrank' : 4 ≤ n := by
          rw [hw] at hrank
          exact Nat.le_of_succ_le_succ hrank
        have hopen : w.server.Open env w.now s := by
          unfold OnTrack at ht
          rw [hw] at ht
          exact ht.2
        have hfile : w.disk.enrollment = .good s ∧ s.serverOrigin = origin := by
          unfold StageSound at hst
          rw [hw] at hst
          exact hst
        rcases token_open hopen (h.known s hfile.1 hfile.2) with ⟨e, hfind, hpending, -⟩ | ⟨heq, -⟩
        · -- the user approves, and the next poll is granted
          obtain ⟨userId, hactive⟩ := fair.user
          have quiet : (Event.approve s.deviceCode userId).IsQuiet = true := rfl
          obtain ⟨h', hst'⟩ := sound_step fair h hst (.approve s.deviceCode userId)
          have ht' := onTrack_step fair h hst ht quiet
          refine Finishes.cons quiet (next h' hst' ht' ?_)
          obtain ⟨e', hfind', hexpires, -⟩ := id hopen
          rw [hfind] at hfind'
          obtain rfl := Option.some.inj hfind'
          have hcode : e.deviceCode = s.deviceCode := by simpa using List.find?_some hfind
          have happrove : w.server.approve env w.now s.deviceCode userId =
              w.server.setState s.deviceCode (.approved userId) := by
            unfold Server.approve
            rw [hfind]
            exact if_pos ⟨hpending, hexpires, hactive⟩
          have hopen' : (w.server.approve env w.now s.deviceCode userId).Open env w.now s :=
            open_approve hopen
          rcases token_open hopen' (holds_approve (h.known s hfile.1 hfile.2)) with
            ⟨e', hfind', hpending', -⟩ | ⟨heq, -⟩
          · rw [happrove, find_setState, hfind, Option.map_some, if_pos hcode] at hfind'
            rw [← Option.some.inj hfind'] at hpending'
            cases hpending'
          · rw [proceed_granted (w := step env origin w (.approve s.deviceCode userId)) hw heq]
            exact hrank'
        · refine next h hst ht ?_
          rw [proceed_granted hw heq]
          exact hrank'
      · refine next h hst ht (Nat.le_of_lt_succ (lt_of_lt_of_le (rank_proceed ?_ ht ?_) hrank))
        · exact fun r hr => hdone ⟨r, hr⟩
        · exact fun s interval hw => hpoll ⟨s, interval, hw⟩

/-! ### result -/

/-- The profile is bound to the server, which takes its credential. -/
def Ready (env : Env) (origin : String) (w : World) : Prop :=
  ∃ p, loadBoundProfile env w.disk = .ok p ∧
    env.normalizeServerOrigin p.config.serverUrl = .ok origin ∧
    p.credential.serverOrigin = origin ∧ w.server.Knows env w.now p.credential

/-- A login that is started now and not disturbed can always come to its end, and ends with a
profile. -/
def Recovers (env : Env) (origin : String) (w : World) : Prop :=
  ∀ es v, (∀ a ∈ es, Event.IsQuiet a = true) →
    (system env origin (· = w)).Run (step env origin w .login) es v →
      (∀ r, v.stage = .done r → (∃ o, r = .ok o) ∧ Ready env origin v) ∧ Finishes env origin v

theorem ready_of_loggedIn (fair : env.Fair origin) (h : Sound env origin w) {c : DeviceCredential}
    (hc : LoggedIn env origin w c) : Ready env origin w := by
  obtain ⟨hcred, rfl, hk, hnamed⟩ := hc
  unfold Ready loadBoundProfile
  rw [hcred]
  cases hcfg : w.disk.config with
  | bad => exact absurd hcfg h.config
  | missing =>
    have hnorm : env.normalizeServerOrigin (newConfig c.serverOrigin).serverUrl =
      .ok c.serverOrigin := fair.normal
    simp only [File.load, Option.getD_none, hnorm, ne_eq, not_true_eq_false, if_false]
    exact ⟨_, rfl, hnorm, rfl, hk⟩
  | good cfg =>
    have hnorm : env.normalizeServerOrigin cfg.serverUrl = .ok c.serverOrigin := by
      rw [hnamed cfg hcfg]
      exact fair.normal
    simp only [File.load, Option.getD_some, hnorm, ne_eq, not_true_eq_false, if_false]
    exact ⟨_, rfl, hnorm, rfl, hk⟩

theorem step_login (hrest : w.AtRest) :
    step env origin w .login = { w with stage := start origin w.now w.disk } := by
  unfold step
  rcases hrest with h | ⟨r, h⟩ <;> rw [h]

/-- The files after any run of logins from where one is allowed to start. -/
theorem sound_of_run (fair : env.Fair origin) {Init : World → Prop} {w' : World} {es : List Event}
    (allowed : Allowed env origin w) (run : (system env origin Init).Run w es w') :
    Sound env origin w' ∧ StageSound env origin w' := by
  refine run.inv (I := fun w => Sound env origin w ∧ StageSound env origin w) ?_
    ⟨sound_of_allowed allowed, ?_⟩
  · rintro s a t ⟨h, hst⟩ rfl
    exact sound_step fair h hst a
  · unfold StageSound
    rw [allowed.idle]
    trivial

/-- A run of quiet events stays on the track. -/
theorem onTrack_run (fair : env.Fair origin) {Init : World → Prop} {v : World} {es : List Event}
    (quiet : ∀ a ∈ es, Event.IsQuiet a = true) (run : (system env origin Init).Run w es v)
    (h : Sound env origin w) (hst : StageSound env origin w) (ht : OnTrack env origin w) :
    Sound env origin v ∧ StageSound env origin v ∧ OnTrack env origin v := by
  induction run with
  | nil => exact ⟨h, hst, ht⟩
  | cons hstep _ ih =>
    obtain rfl := hstep
    rw [List.forall_mem_cons] at quiet
    obtain ⟨h', hst'⟩ := sound_step fair h hst _
    exact ih quiet.2 h' hst' (onTrack_step fair h hst ht quiet.1)

/-- After any run of logins for the server, with crashes and failures anywhere: the next login
recovers unless the files of two servers are left side by side. -/
theorem recovers_iff (fair : env.Fair origin) {w' : World} {es : List Event}
    (allowed : Allowed env origin w) (run : (system env origin (· = w)).Run w es w')
    (rest : w'.AtRest) (granting : Granting env origin w') :
    Recovers env origin w' ↔ ¬ w'.disk.Split origin := by
  obtain ⟨h, hst⟩ := sound_of_run fair allowed run
  constructor
  · intro hrec hsplit
    obtain ⟨e, he⟩ := start_split w'.now hsplit h.own
    have hend := (hrec [] _ (by simp) (.nil _)).1 (.error e) (by rw [step_login rest, he])
    obtain ⟨⟨o, ho⟩, -⟩ := hend
    cases ho
  · intro hsplit es v quiet hrun
    obtain ⟨h', hst'⟩ := sound_step fair h hst .login
    have ht : OnTrack env origin (step env origin w' .login) := by
      rw [step_login rest]
      exact onTrack_start h hsplit granting
    obtain ⟨hv, hstv, htv⟩ := onTrack_run fair quiet hrun h' hst' ht
    refine ⟨fun r hr => ?_, finishes_of_rank fair _ hv hstv htv le_rfl⟩
    unfold OnTrack at htv
    rw [hr] at htv
    obtain ⟨hok, c, hc⟩ := htv
    exact ⟨hok, ready_of_loggedIn fair hv hc⟩

end

/-! ### a crash between two files -/

namespace Sample

/-- A name that is not among some. -/
def newName (used : List String) : String :=
  String.ofList (List.replicate ((used.map String.length).sum + 1) 'x')

theorem newName_not_mem {used : List String} {s : String} (h : s ∈ used) : s ≠ newName used := by
  have hle : s.length ≤ (used.map String.length).sum := by
    induction used with
    | nil => cases h
    | cons t used ih =>
      rw [List.map_cons, List.sum_cons]
      rcases List.mem_cons.1 h with rfl | h
      · omega
      · have := ih h
        omega
  rintro rfl
  rw [newName, String.length_ofList, List.length_replicate] at hle
  omega

def env : Env where
  normalizeServerOrigin := .ok
  sha256 := fun secret => "sha256:" ++ secret
  isUserActive := fun userId => userId == "usr_1"
  draw := fun server =>
    { deviceCode := newName (server.enrollments.map (·.deviceCode))
      userCode := "ABCD-EFGH", deviceId := "dev_1"
      credentialId := newName (server.credentials.map (·.id)), secret := "secret" }

def origin : String := "https://ceo.example.com"

theorem fair : env.Fair origin where
  normal := rfl
  newCode _ _ he := newName_not_mem (List.mem_map_of_mem he)
  newCredential _ _ hc := newName_not_mem (List.mem_map_of_mem hc)
  user := ⟨"usr_1", rfl⟩

/-- No credential, nothing pending, and a config. -/
def before (serverUrl : String) : World :=
  ⟨⟨.good ⟨3, serverUrl, []⟩, .missing, .missing, false, false⟩, ⟨[], []⟩, 0, .idle⟩

theorem allowed (serverUrl : String) : Allowed env origin (before serverUrl) := by
  have hstart : (step env origin (before serverUrl) .login).stage = .begin := by
    have hb : boundElsewhere origin (before serverUrl).disk = .ok () := by
      rw [boundElsewhere_ok]
      refine ⟨fun h => (by cases h), fun cfg hcfg _ => ?_⟩
      obtain rfl := File.good.inj hcfg
      exact ⟨rfl, rfl, rfl, rfl⟩
    show start origin 0 (before serverUrl).disk = .begin
    unfold start
    rw [hb]
    rfl
  refine ⟨rfl, fun e he => ?_, fun e he => ?_, fun s hs => by cases hs⟩
  · rw [hstart] at he
    cases he
  · unfold proceed at he
    rw [hstart] at he
    cases he

/-- A login up to the credential; the config is not written. -/
def toCredential : List Event :=
  [.login, .proceed, .proceed, .proceed, .approve "x" "usr_1", .proceed, .proceed, .proceed, .crash]

def crashed (serverUrl : String) : World := toCredential.foldl (step env origin) (before serverUrl)

def credential : DeviceCredential :=
  ⟨origin, "usr_1", "dev_1", "x", "secret", deviceCredentialTtlMs⟩

/-- The credential is in force, so that nothing has to be granted. -/
theorem granting {w : World} (hcred : w.disk.credential = .good credential)
    (hident : w.server.identity env w.now "x" "secret" =
      some ⟨"usr_1", "dev_1", "x", deviceCredentialTtlMs⟩) : Granting env origin w :=
  fun _ _ _ _ hdead => absurd ⟨_, hident, rfl, rfl⟩ (hdead credential hcred rfl)

theorem not_split : ¬ (crashed origin).disk.Split origin := by
  have hcfg : (crashed origin).disk.config = .good ⟨3, origin, []⟩ := by decide +kernel
  have hcred : (crashed origin).disk.credential =
      .good credential := by decide +kernel
  rintro (⟨cfg, hc, hne, -⟩ | ⟨c, s, hc, hne, -⟩)
  · rw [hcfg] at hc
    obtain rfl := File.good.inj hc
    exact hne rfl
  · rw [hcred] at hc
    obtain rfl := File.good.inj hc
    exact hne rfl

end Sample

def Stage.isRefused : Stage → Bool
  | .done (.error _) => true
  | _ => false

/-- The config names the server already: the next login recovers. -/
theorem recovers_crashed : Recovers Sample.env Sample.origin (Sample.crashed Sample.origin) :=
  (recovers_iff Sample.fair (Sample.allowed Sample.origin) (LTS.run_ofFun _ _ _ Sample.toCredential)
    (.inl rfl) (Sample.granting (by decide +kernel) (by decide +kernel))).2 Sample.not_split

/-- A config of another server, without anything bound to it: after a crash behind the credential
every login is refused. -/
theorem relogin_refused :
    ¬ ∀ w es w', Allowed Sample.env Sample.origin w →
      (system Sample.env Sample.origin (· = w)).Run w es w' → w'.AtRest →
        Granting Sample.env Sample.origin w' → Recovers Sample.env Sample.origin w' := by
  intro h
  have hrec := h (Sample.before "https://old.example.com") Sample.toCredential
    (Sample.crashed "https://old.example.com") (Sample.allowed _)
    (LTS.run_ofFun _ _ _ Sample.toCredential) (.inl rfl)
    (Sample.granting (by decide +kernel) (by decide +kernel))
  have hend := (hrec [] _ (by simp) (.nil _)).1
  have hrefused : (step Sample.env Sample.origin (Sample.crashed "https://old.example.com")
      .login).stage.isRefused = true := by decide +kernel
  revert hrefused hend
  cases (step Sample.env Sample.origin (Sample.crashed "https://old.example.com") .login).stage with
  | done r =>
    cases r with
    | ok o =>
      intro _ hrefused
      cases hrefused
    | error e =>
      intro hend _
      obtain ⟨⟨o, ho⟩, -⟩ := hend _ rfl
      cases ho
  | idle | identify | forget | discard | begin | save | wait | poll | dismiss | verify
  | saveCredential | saveConfig | cleanUp =>
    intro _ hrefused
    cases hrefused

end Ceo.Connector.Login
