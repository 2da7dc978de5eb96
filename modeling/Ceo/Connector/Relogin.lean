import Ceo.Connector.Login

/-!
# Login after a crash

What the files say at every point of any number of logins for one server, and
what the next login makes of them. Two states of the files are left by a crash
and refused for ever: a config of another server beside the new credential, and
a credential of another server beside the new enrollment.
-/

namespace Ceo.Connector.Login

open Ceo.Lib
open ConfigMigration (LocalConfig configSchemaVersion)

/-! ### the server -/

/-- The enrollment of a session is the one that the session was made of. -/
def Server.Holds (env : Env) (server : Server) (s : PendingEnrollmentSession) : Prop :=
  ∀ e ∈ server.enrollments, e.deviceCode = s.deviceCode →
    e.reservedDeviceId = s.reservedDeviceId ∧ e.reservedCredentialId = s.reservedCredentialId ∧
      e.credentialSecretDigest = env.sha256 s.secret

/-- What holds of the parts outside: an origin is its own normal form, what is drawn is new, and
there is a user who may approve. -/
structure Env.Fair (env : Env) (origin : String) : Prop where
  normal : env.normalizeServerOrigin origin = .ok origin
  newCode : ∀ server, ∀ e ∈ server.enrollments, e.deviceCode ≠ (env.draw server).deviceCode
  newCredential : ∀ server, ∀ c ∈ server.credentials, c.id ≠ (env.draw server).credentialId
  user : ∃ userId, env.isUserActive userId = true

section server

variable {env : Env} {now : Int} {server : Server} {code : String}

theorem identity_congr {server' : Server} (h : server'.credentials = server.credentials)
    (credentialId secret : String) :
    server'.identity env now credentialId secret = server.identity env now credentialId secret := by
  unfold Server.identity
  rw [h]

theorem knows_congr {server' : Server} (h : server'.credentials = server.credentials)
    {c : DeviceCredential} : server'.Knows env now c ↔ server.Knows env now c := by
  unfold Server.Knows
  rw [identity_congr h]

/-- A credential that is known later is known now. -/
theorem Server.Knows.earlier {c : DeviceCredential} {ms : Nat}
    (h : server.Knows env (now + ms) c) : server.Knows env now c := by
  obtain ⟨ident, hid, hids⟩ := h
  refine ⟨ident, ?_, hids⟩
  unfold Server.identity at hid ⊢
  split at hid
  · cases hid
  · split_ifs at hid with hlater
    rw [if_neg, hid]
    intro hnow
    refine hlater ?_
    simp only [Bool.or_eq_true, decide_eq_true_eq] at hnow ⊢
    rcases hnow with ((hnow | hnow) | hnow) | hnow
    · exact .inl (.inl (.inl hnow))
    · exact .inl (.inl (.inr (by omega)))
    · exact .inl (.inr hnow)
    · exact .inr hnow

theorem begin_credentials : (server.begin env now).credentials = server.credentials := rfl

theorem approve_credentials {userId : String} :
    (server.approve env now code userId).credentials = server.credentials := by
  unfold Server.approve
  split
  · rfl
  · split_ifs <;> rfl

theorem holds_setState {s : PendingEnrollmentSession} {state : EnrollmentState}
    (h : server.Holds env s) : (server.setState code state).Holds env s := by
  intro e he hcode
  obtain ⟨e', he', rfl⟩ := List.mem_map.1 he
  split_ifs at hcode ⊢
  · exact h e' he' hcode
  · exact h e' he' hcode

theorem holds_approve {s : PendingEnrollmentSession} {userId : String} (h : server.Holds env s) :
    (server.approve env now code userId).Holds env s := by
  unfold Server.approve
  split
  · exact h
  · split_ifs
    · exact holds_setState h
    · exact h

/-- What a poll adds is the credential of the enrollment. -/
theorem token_cases (env : Env) (now : Int) (server : Server) (code : String) :
    ((server.token env now code).2.credentials = server.credentials ∨
      ∃ e ∈ server.enrollments, e.deviceCode = code ∧
        server.credentials.find? (·.id == e.reservedCredentialId) = none ∧
        ∃ userId, (server.token env now code).2.credentials = server.credentials ++
          [⟨e.reservedCredentialId, e.reservedDeviceId, userId, e.credentialSecretDigest,
            now + deviceCredentialTtlMs, false⟩]) ∧
    ((server.token env now code).2.enrollments = server.enrollments ∨
      (server.token env now code).2.enrollments = (server.setState code .consumed).enrollments) := by
  unfold Server.token
  split
  · exact ⟨.inl rfl, .inl rfl⟩
  · next e hfind =>
    split_ifs
    · exact ⟨.inl rfl, .inl rfl⟩
    · split
      · exact ⟨.inl rfl, .inl rfl⟩
      · exact ⟨.inl rfl, .inl rfl⟩
      · next userId hstate =>
        split
        · exact ⟨.inl rfl, .inl rfl⟩
        · next server' hfinal =>
          have hmem := List.mem_of_find?_eq_some hfind
          have hcode : e.deviceCode = code := by simpa using List.find?_some hfind
          unfold Server.finalizeDeviceEnrollment at hfinal
          split_ifs at hfinal
          split at hfinal
          · split_ifs at hfinal
            obtain rfl := Option.some.inj hfinal
            exact ⟨.inl rfl, .inr rfl⟩
          · next hnone =>
            obtain rfl := Option.some.inj hfinal
            exact ⟨.inr ⟨e, hmem, hcode, hnone, userId, rfl⟩, .inr rfl⟩
      · split
        · exact ⟨.inl rfl, .inl rfl⟩
        · exact ⟨.inl rfl, .inl rfl⟩

theorem holds_token {s : PendingEnrollmentSession} (h : server.Holds env s) :
    (server.token env now code).2.Holds env s := by
  rcases (token_cases env now server code).2 with heq | heq
  · unfold Server.Holds
    rw [heq]
    exact h
  · have : (server.setState code .consumed).Holds env s := holds_setState h
    unfold Server.Holds at this ⊢
    rw [heq]
    exact this

/-- A credential that a poll makes known has the reserved ids. -/
theorem knows_token {s : PendingEnrollmentSession} {c : DeviceCredential} (h : server.Holds env s)
    (hk : (server.token env now s.deviceCode).2.Knows env now c) :
    server.Knows env now c ∨
      (s.reservedDeviceId = c.deviceId ∧ s.reservedCredentialId = c.credentialId) := by
  rcases (token_cases env now server s.deviceCode).1 with heq | ⟨e, he, hcode, hnone, userId, heq⟩
  · exact .inl ((knows_congr heq).1 hk)
  · obtain ⟨hdev, hcred, -⟩ := h e he hcode
    obtain ⟨ident, hid, hids⟩ := hk
    by_cases hsame : c.credentialId = e.reservedCredentialId
    · refine .inr ⟨?_, by rw [hsame, hcred]⟩
      unfold Server.identity at hid
      rw [heq, hsame, List.find?_append, hnone] at hid
      simp only [Option.none_or, List.find?_cons, beq_self_eq_true] at hid
      split_ifs at hid
      rw [← hids.1, ← Option.some.inj hid, hdev]
    · refine .inl ⟨ident, ?_, hids⟩
      unfold Server.identity at hid ⊢
      rw [heq, List.find?_append] at hid
      have hno : ([⟨e.reservedCredentialId, e.reservedDeviceId, userId, e.credentialSecretDigest,
          now + deviceCredentialTtlMs, false⟩] : List CredentialRecord).find?
            (·.id == c.credentialId) = none := by
        simpa using Ne.symm hsame
      rwa [hno, Option.or_none] at hid

end server

/-! ### the files at every point -/

/-- No credential on disk is in force. -/
def World.Dead (env : Env) (origin : String) (w : World) : Prop :=
  ∀ c, w.disk.credential = .good c → c.serverOrigin = origin → ¬ w.server.Knows env w.now c

/-- What every file says, whatever a login is about to do. -/
structure Sound (env : Env) (origin : String) (w : World) : Prop where
  config : w.disk.config ≠ .bad
  unbound : ∀ cfg, w.disk.config = .good cfg → cfg.serverUrl ≠ origin →
    cfg.targets = [] ∧ w.disk.activeAttempt = false ∧ w.disk.outbox = false
  credential : w.disk.credential ≠ .bad
  enrollment : w.disk.enrollment ≠ .bad
  known : ∀ s, w.disk.enrollment = .good s → s.serverOrigin = origin → w.server.Holds env s
  own : ∀ c s, w.disk.credential = .good c → w.disk.enrollment = .good s → s.serverOrigin = origin
  coherent : ∀ c s, w.disk.credential = .good c → w.disk.enrollment = .good s →
    c.serverOrigin = origin → w.server.Knows env w.now c →
      s.reservedDeviceId = c.deviceId ∧ s.reservedCredentialId = c.credentialId

/-- What a login knows of the files. -/
def StageSound (env : Env) (origin : String) (w : World) : Prop :=
  match w.stage with
  | .identify c session => w.disk.credential = .good c ∧ w.disk.enrollment = .ofOption session
  | .discard => w.Dead env origin
  | .begin => w.disk.enrollment = .missing ∧ w.Dead env origin
  | .save s => s.serverOrigin = origin ∧ w.server.Holds env s ∧ w.Dead env origin
  | .wait s _ | .poll s _ | .verify s => w.disk.enrollment = .good s ∧ s.serverOrigin = origin
  | .saveCredential s c => w.disk.enrollment = .good s ∧ s.serverOrigin = origin ∧
      s.reservedDeviceId = c.deviceId ∧ s.reservedCredentialId = c.credentialId
  | .saveConfig s _ => s.serverOrigin = origin
  | .idle | .forget _ | .dismiss _ | .cleanUp _ | .done _ => True

/-- A login may start: the files pass its checks, so does the answer to its first request, and a
pending enrollment is one of the server's. -/
structure Allowed (env : Env) (origin : String) (w : World) : Prop where
  idle : w.stage = .idle
  admitted : ∀ e, (step env origin w .login).stage ≠ .done (.error e)
  answered : ∀ e, (proceed env origin (step env origin w .login)).stage ≠ .done (.error e)
  known : ∀ s, w.disk.enrollment = .good s → s.serverOrigin = origin → w.server.Holds env s

section

variable {env : Env} {origin : String} {w : World}

/-- The first check of a login. -/
theorem boundElsewhere_ok {d : Disk} : boundElsewhere origin d = .ok () ↔
    d.config ≠ .bad ∧ ∀ cfg, d.config = .good cfg → cfg.serverUrl ≠ origin →
      cfg.targets = [] ∧ d.credential = .missing ∧ d.activeAttempt = false ∧ d.outbox = false := by
  unfold boundElsewhere
  cases hc : d.config with
  | missing => simp [File.load]
  | bad => simp [File.load]
  | good cfg =>
    simp only [File.load]
    split_ifs with h
    · simp only [reduceCtorEq, ne_eq, not_false_eq_true, File.good.injEq, true_and, false_iff,
        not_forall]
      refine ⟨cfg, rfl, h.1, ?_⟩
      rintro ⟨ht, hcred, ha, ho⟩
      rcases h.2 with h | h | h | h
      · exact h ht
      · exact h hcred
      · rw [ha] at h
        cases h
      · rw [ho] at h
        cases h
    · simp only [ne_eq, reduceCtorEq, not_false_eq_true, File.good.injEq, true_and, true_iff]
      rintro cfg rfl hne
      exact ⟨by_contra fun ht => h ⟨hne, .inl ht⟩, by_contra fun hm => h ⟨hne, .inr (.inl hm)⟩,
        Bool.eq_false_iff.2 fun ha => h ⟨hne, .inr (.inr (.inl ha))⟩,
        Bool.eq_false_iff.2 fun ho => h ⟨hne, .inr (.inr (.inr ho))⟩⟩

/-- How a login starts that is not refused. -/
theorem start_cases {now : Int} {d : Disk} (h : ∀ e, start origin now d ≠ .done (.error e)) :
    boundElsewhere origin d = .ok () ∧
    ((∃ c s, d.credential = .good c ∧ d.enrollment = .good s ∧ c.serverOrigin = s.serverOrigin ∧
        start origin now d = .identify c (some s)) ∨
      (∃ c, d.credential = .good c ∧ d.enrollment = .missing ∧ c.serverOrigin = origin ∧
        start origin now d = .identify c none) ∨
      (∃ c, d.credential = .good c ∧ d.enrollment = .missing ∧ c.serverOrigin ≠ origin ∧
        start origin now d = .begin) ∨
      ∃ session, d.credential = .missing ∧ d.enrollment = .ofOption session ∧
        start origin now d = resolve origin now session) := by
  unfold start at h ⊢
  cases hb : boundElsewhere origin d with
  | error e =>
    rw [hb] at h
    exact absurd rfl (h e)
  | ok u =>
    rw [hb] at h
    refine ⟨rfl, ?_⟩
    dsimp only at h ⊢
    cases hc : d.credential with
    | bad => exact absurd (by rw [hc]; rfl) (h .io)
    | missing =>
      cases hs : d.enrollment with
      | bad => exact absurd (by rw [hc, hs]; rfl) (h .io)
      | missing => exact .inr (.inr (.inr ⟨none, rfl, rfl, rfl⟩))
      | good s => exact .inr (.inr (.inr ⟨some s, rfl, rfl, rfl⟩))
    | good c =>
      cases hs : d.enrollment with
      | bad => exact absurd (by rw [hc, hs]; rfl) (h .io)
      | missing =>
        by_cases ho : c.serverOrigin = origin
        · exact .inr (.inl ⟨c, rfl, rfl, ho, by simp [File.load, ho]⟩)
        · exact .inr (.inr (.inl ⟨c, rfl, rfl, ho, by simp [File.load, ho]⟩))
      | good s =>
        by_cases ho : c.serverOrigin = s.serverOrigin
        · exact .inl ⟨c, s, rfl, rfl, ho, by simp [File.load, ho]⟩
        · exact absurd (by rw [hc, hs]; simp [File.load, ho]) (h (.localStateInvalid
            "credential and pending enrollment reference different server origins"))

/-- How the pending enrollment is taken up. -/
theorem resolve_cases (origin : String) (now : Int) (session : Option PendingEnrollmentSession) :
    (∃ s, session = some s ∧ s.serverOrigin = origin ∧ s.isExpired now = false ∧
      resolve origin now session = .wait s (max s.pollIntervalSeconds 2)) ∨
    (∃ s, session = some s ∧ (s.serverOrigin ≠ origin ∨ s.isExpired now = true) ∧
      resolve origin now session = .discard) ∨
    (session = none ∧ resolve origin now session = .begin) := by
  cases session with
  | none => exact .inr (.inr ⟨rfl, rfl⟩)
  | some s =>
    unfold resolve
    dsimp only
    split_ifs with h
    · exact .inl ⟨s, rfl, h.1, h.2, rfl⟩
    · refine .inr (.inl ⟨s, rfl, ?_, rfl⟩)
      by_cases ho : s.serverOrigin = origin
      · exact .inr (by simpa [ho] using h)
      · exact .inl ho

/-- What follows on the answer to the first request. -/
theorem identified_cases (env : Env) (origin : String) (w : World) (c : DeviceCredential)
    (session : Option PendingEnrollmentSession) :
    (c.serverOrigin ≠ origin ∧ identified env origin w c session = .done (.error .clientMismatch)) ∨
    (c.serverOrigin = origin ∧ w.server.Knows env w.now c ∧
      ((session = none ∧ identified env origin w c session = .done (.ok ⟨c.deviceId, false⟩)) ∨
        ∃ s, session = some s ∧
          ((s.reservedDeviceId = c.deviceId ∧ s.reservedCredentialId = c.credentialId ∧
              identified env origin w c session = .forget c) ∨
            (¬ (s.reservedDeviceId = c.deviceId ∧ s.reservedCredentialId = c.credentialId) ∧
              ∃ e, identified env origin w c session = .done (.error e))))) ∨
    (c.serverOrigin = origin ∧ ¬ w.server.Knows env w.now c ∧
      identified env origin w c session = resolve origin w.now session) := by
  unfold identified
  by_cases ho : c.serverOrigin = origin
  · rw [if_neg (not_not.2 ho.symm)]
    unfold Server.Knows
    cases hid : w.server.identity env w.now c.credentialId c.secret with
    | none => exact .inr (.inr ⟨ho, by simp, rfl⟩)
    | some ident =>
      dsimp only
      split_ifs with hown
      · refine .inr (.inl ⟨ho, ⟨ident, rfl, hown⟩, ?_⟩)
        cases session with
        | none => exact .inl ⟨rfl, rfl⟩
        | some s =>
          refine .inr ⟨s, rfl, ?_⟩
          dsimp only
          split_ifs with hids
          · exact .inl ⟨hids.1, hids.2, rfl⟩
          · exact .inr ⟨hids, _, rfl⟩
      · refine .inr (.inr ⟨ho, ?_, rfl⟩)
        rintro ⟨ident', h, hids⟩
        obtain rfl := Option.some.inj h
        exact hown hids
  · rw [if_pos (Ne.symm ho)]
    exact .inl ⟨ho, rfl⟩

/-- The files a login is allowed to start from are sound. -/
theorem sound_of_allowed (h : Allowed env origin w) : Sound env origin w := by
  have hstep : (step env origin w .login).stage = start origin w.now w.disk := by
    unfold step
    rw [h.idle]
  have hadm := h.admitted
  rw [hstep] at hadm
  obtain ⟨hb, hcases⟩ := start_cases hadm
  obtain ⟨hconfig, hfree⟩ := boundElsewhere_ok.1 hb
  -- what the answer to the first request says of a credential beside an enrollment
  have both {c s} (hc : w.disk.credential = .good c) (hs : w.disk.enrollment = .good s) :
      s.serverOrigin = origin ∧ (w.server.Knows env w.now c →
        s.reservedDeviceId = c.deviceId ∧ s.reservedCredentialId = c.credentialId) := by
    rcases hcases with ⟨c', s', hc', hs', ho, hst⟩ | ⟨c', -, hs', -⟩ | ⟨c', -, hs', -⟩ |
      ⟨session, hc', -⟩
    · rw [hc] at hc'
      rw [hs] at hs'
      obtain rfl := File.good.inj hc'
      obtain rfl := File.good.inj hs'
      have hans : ∀ e, identified env origin (step env origin w .login) c (some s) ≠
          .done (.error e) := by
        intro e
        have := h.answered e
        unfold proceed at this
        rwa [hstep, hst] at this
      have hserver : (step env origin w .login).server = w.server ∧
          (step env origin w .login).now = w.now := by
        unfold step
        rw [h.idle]
        exact ⟨rfl, rfl⟩
      rcases identified_cases env origin (step env origin w .login) c (some s) with
        ⟨-, herr⟩ | ⟨hco, hk, hrest⟩ | ⟨hco, hk, -⟩
      · exact absurd herr (hans _)
      · refine ⟨ho ▸ hco, fun _ => ?_⟩
        rcases hrest with ⟨hno, -⟩ | ⟨s', hs', ⟨h1, h2, -⟩ | ⟨-, e, herr⟩⟩
        · cases hno
        · obtain rfl := Option.some.inj hs'
          exact ⟨h1, h2⟩
        · exact absurd herr (hans e)
      · rw [hserver.1, hserver.2] at hk
        exact ⟨ho ▸ hco, fun hknow => absurd hknow hk⟩
    · rw [hs] at hs'
      cases hs'
    · rw [hs] at hs'
      cases hs'
    · rw [hc] at hc'
      cases hc'
  refine ⟨hconfig, fun cfg hcfg hne => ?_, ?_, ?_, h.known, fun c s hc hs => (both hc hs).1,
    fun c s hc hs _ => (both hc hs).2⟩
  · obtain ⟨ht, -, ha, ho⟩ := hfree cfg hcfg hne
    exact ⟨ht, ha, ho⟩
  · rcases hcases with ⟨c, s, hc, -⟩ | ⟨c, hc, -⟩ | ⟨c, hc, -⟩ | ⟨session, hc, -⟩ <;>
      rw [hc] <;> exact fun h => by cases h
  · rcases hcases with ⟨c, s, -, hs, -⟩ | ⟨c, -, hs, -⟩ | ⟨c, -, hs, -⟩ | ⟨session, -, hs, -⟩
    · rw [hs]
      exact fun h => by cases h
    · rw [hs]
      exact fun h => by cases h
    · rw [hs]
      exact fun h => by cases h
    · rw [hs]
      cases session <;> exact fun h => by cases h

variable {w' : World}

theorem Sound.frame (h : Sound env origin w) (hd : w'.disk = w.disk)
    (hh : ∀ s, w.disk.enrollment = .good s → w.server.Holds env s → w'.server.Holds env s)
    (hk : ∀ c s, w.disk.credential = .good c → w.disk.enrollment = .good s →
      c.serverOrigin = origin → w'.server.Knows env w'.now c → w.server.Knows env w.now c ∨
        (s.reservedDeviceId = c.deviceId ∧ s.reservedCredentialId = c.credentialId)) :
    Sound env origin w' where
  config := by rw [hd]; exact h.config
  unbound := by rw [hd]; exact h.unbound
  credential := by rw [hd]; exact h.credential
  enrollment := by rw [hd]; exact h.enrollment
  known s hs ho := by
    rw [hd] at hs
    exact hh s hs (h.known s hs ho)
  own := by rw [hd]; exact h.own
  coherent c s hc hs ho hknow := by
    rw [hd] at hc hs
    exact (hk c s hc hs ho hknow).elim (h.coherent c s hc hs ho) id

/-- A new stage is nothing to the files. -/
theorem Sound.setStage (h : Sound env origin w) (stage : Stage) :
    Sound env origin { w with stage := stage } :=
  h.frame rfl (fun _ _ h => h) fun _ _ _ _ _ h => .inl h

theorem Sound.removeEnrollment (h : Sound env origin w) (stage : Stage) :
    Sound env origin { w with disk := w.disk.removeEnrollment, stage := stage } where
  config := h.config
  unbound := h.unbound
  credential := h.credential
  enrollment hbad := by cases hbad
  known s hs := by cases hs
  own c s _ hs := by cases hs
  coherent c s _ hs := by cases hs

theorem Sound.setEnrollment (h : Sound env origin w) {s : PendingEnrollmentSession}
    (ho : s.serverOrigin = origin) (hs : w.server.Holds env s) (hdead : w.Dead env origin)
    (stage : Stage) :
    Sound env origin { w with disk := w.disk.setEnrollment s, stage := stage } where
  config := h.config
  unbound := h.unbound
  credential := h.credential
  enrollment hbad := by cases hbad
  known s' hs' _ := by
    obtain rfl := File.good.inj hs'
    exact hs
  own c s' _ hs' := by
    obtain rfl := File.good.inj hs'
    exact ho
  coherent c _ hc _ hco hk := absurd hk (hdead c hc hco)

theorem Sound.setCredential (h : Sound env origin w) {s : PendingEnrollmentSession}
    {c : DeviceCredential} (hs : w.disk.enrollment = .good s) (ho : s.serverOrigin = origin)
    (hids : s.reservedDeviceId = c.deviceId ∧ s.reservedCredentialId = c.credentialId)
    (stage : Stage) :
    Sound env origin { w with disk := w.disk.setCredential c, stage := stage } where
  config := h.config
  unbound := h.unbound
  credential hbad := by cases hbad
  enrollment := h.enrollment
  known := h.known
  own _ s' _ hs' := by
    have hs' : w.disk.enrollment = .good s' := hs'
    rw [hs] at hs'
    rw [← File.good.inj hs', ho]
  coherent c' s' hc' hs' _ _ := by
    have hs' : w.disk.enrollment = .good s' := hs'
    rw [hs] at hs'
    obtain rfl := File.good.inj hc'
    rw [← File.good.inj hs']
    exact hids

theorem Sound.setConfig (h : Sound env origin w) {cfg : LocalConfig} (ho : cfg.serverUrl = origin)
    (stage : Stage) :
    Sound env origin { w with disk := w.disk.setConfig cfg, stage := stage } where
  config hbad := by cases hbad
  unbound cfg' hcfg' hne := by
    obtain rfl := File.good.inj hcfg'
    exact absurd ho hne
  credential := h.credential
  enrollment := h.enrollment
  known := h.known
  own := h.own
  coherent := h.coherent

theorem World.Dead.frame (h : w.Dead env origin) (hd : w'.disk.credential = w.disk.credential)
    (hk : ∀ c, w'.server.Knows env w'.now c → w.server.Knows env w.now c) : w'.Dead env origin :=
  fun c hc ho hknow => h c (hd ▸ hc) ho (hk c hknow)

theorem StageSound.frame (h : StageSound env origin w) (hst : w'.stage = w.stage)
    (hd : w'.disk = w.disk) (hh : ∀ s, w.server.Holds env s → w'.server.Holds env s)
    (hk : ∀ c, w'.server.Knows env w'.now c → w.server.Knows env w.now c) :
    StageSound env origin w' := by
  have dead (h : w.Dead env origin) : w'.Dead env origin := h.frame (by rw [hd]) hk
  unfold StageSound at h ⊢
  rw [hst]
  cases hw : w.stage with
  | idle | forget | dismiss | cleanUp | done => trivial
  | identify c session =>
    rw [hw] at h
    rwa [hd]
  | discard =>
    rw [hw] at h
    exact dead h
  | begin =>
    rw [hw] at h
    rw [hd]
    exact ⟨h.1, dead h.2⟩
  | save s =>
    rw [hw] at h
    exact ⟨h.1, hh s h.2.1, dead h.2.2⟩
  | wait | poll | verify | saveCredential =>
    rw [hw] at h
    rwa [hd]
  | saveConfig =>
    rw [hw] at h
    exact h

/-- What a login takes up is what is on disk. -/
theorem stageSound_resolve {session : Option PendingEnrollmentSession}
    (hs : w.disk.enrollment = .ofOption session) (hdead : w.Dead env origin) :
    StageSound env origin { w with stage := resolve origin w.now session } := by
  unfold StageSound
  rcases resolve_cases origin w.now session with ⟨s, rfl, ho, -, hr⟩ | ⟨s, rfl, -, hr⟩ |
    ⟨rfl, hr⟩ <;> simp only [hr]
  · exact ⟨hs, ho⟩
  · exact hdead
  · exact ⟨hs, hdead⟩

theorem stageSound_start : StageSound env origin { w with stage := start origin w.now w.disk } := by
  by_cases h : ∃ e, start origin w.now w.disk = .done (.error e)
  · obtain ⟨e, he⟩ := h
    simp only [StageSound, he]
  · obtain ⟨-, hcases⟩ := start_cases (not_exists.1 h)
    rcases hcases with ⟨c, s, hc, hs, -, hst⟩ | ⟨c, hc, hs, -, hst⟩ | ⟨c, hc, hs, ho, hst⟩ |
      ⟨session, hc, hs, hst⟩
    · simp only [StageSound, hst]
      exact ⟨hc, hs⟩
    · simp only [StageSound, hst]
      exact ⟨hc, hs⟩
    · simp only [StageSound, hst]
      refine ⟨hs, fun c' hc' ho' => ?_⟩
      have hc' : w.disk.credential = .good c' := hc'
      rw [hc] at hc'
      exact absurd ((File.good.inj hc') ▸ ho') ho
    · rw [hst]
      refine stageSound_resolve hs fun c hc' => ?_
      rw [hc] at hc'
      cases hc'

theorem stageSound_polled {s : PendingEnrollmentSession} {server : Server} (interval : Nat)
    (outcome : PollOutcome) (hs : w.disk.enrollment = .good s) (ho : s.serverOrigin = origin) :
    StageSound env origin { w with server := server, stage := polled s interval outcome } := by
  cases outcome with
  | pending | internalError | slowDown => exact ⟨hs, ho⟩
  | accessDenied | expired | notFound | invalidGrant => trivial
  | approved deviceId credentialId =>
    unfold StageSound polled
    dsimp only
    by_cases hids : deviceId ≠ s.reservedDeviceId ∨ credentialId ≠ s.reservedCredentialId
    · rw [if_pos hids]
      trivial
    · rw [if_neg hids]
      exact ⟨hs, ho⟩

theorem holds_newSession (fair : env.Fair origin) (now : Int) (server : Server) :
    (server.begin env now).Holds env (newSession env origin now server) := by
  intro e he hcode
  rcases List.mem_append.1 he with he | he
  · exact absurd hcode (fair.newCode server e (List.mem_filter.1 he).1)
  · obtain rfl := List.mem_singleton.1 he
    exact ⟨rfl, rfl, rfl⟩

/-- The server has begun an enrollment; there was none on disk. -/
theorem sound_begin (h : Sound env origin w) (hs : w.disk.enrollment = .missing) (stage : Stage) :
    Sound env origin { w with server := w.server.begin env w.now, stage := stage } := by
  refine h.frame rfl (fun s hs' => ?_) fun c s _ hs' => ?_
  · rw [hs] at hs'
    cases hs'
  · rw [hs] at hs'
    cases hs'

theorem sound_token (h : Sound env origin w) {s : PendingEnrollmentSession}
    (hs : w.disk.enrollment = .good s) (ho : s.serverOrigin = origin) (stage : Stage) :
    Sound env origin
      { w with server := (w.server.token env w.now s.deviceCode).2, stage := stage } := by
  refine h.frame rfl (fun s' _ hh => holds_token hh) fun c s' _ hs' _ hk => ?_
  rw [hs] at hs'
  obtain rfl := File.good.inj hs'
  exact knows_token (h.known s hs ho) hk

/-- What `verified` builds has the reserved ids. -/
theorem verified_cases (env : Env) (w : World) (s : PendingEnrollmentSession) :
    (∃ e, verified env w s = .done (.error e)) ∨
      ∃ ident, w.server.identity env w.now s.reservedCredentialId s.secret = some ident ∧
        ident.deviceId = s.reservedDeviceId ∧ ident.credentialId = s.reservedCredentialId ∧
        verified env w s = .saveCredential s ⟨s.serverOrigin, ident.userId, ident.deviceId,
          ident.credentialId, s.secret, ident.expiresAtMs⟩ := by
  unfold verified
  cases w.server.identity env w.now s.reservedCredentialId s.secret with
  | none => exact .inl ⟨_, rfl⟩
  | some ident =>
    dsimp only
    split_ifs with h
    · exact .inl ⟨_, rfl⟩
    · refine .inr ⟨ident, rfl, ?_, ?_, rfl⟩
      · exact by_contra fun hd => h (.inl hd)
      · exact by_contra fun hc => h (.inr hc)

theorem sound_proceed (fair : env.Fair origin) (h : Sound env origin w)
    (hst : StageSound env origin w) :
    Sound env origin (proceed env origin w) ∧ StageSound env origin (proceed env origin w) := by
  unfold StageSound at hst
  unfold proceed
  cases hw : w.stage with
  | idle =>
    refine ⟨h, ?_⟩
    unfold StageSound
    rw [hw]
    trivial
  | done r =>
    refine ⟨h, ?_⟩
    unfold StageSound
    rw [hw]
    trivial
  | identify c session =>
    rw [hw] at hst
    refine ⟨h.setStage _, ?_⟩
    rcases identified_cases env origin w c session
      with ⟨-, he⟩ | ⟨-, -, ⟨-, he⟩ | ⟨s, -, ⟨-, -, he⟩ | ⟨-, e, he⟩⟩⟩ | ⟨-, hk, he⟩
    · simp only [StageSound, he]
    · simp only [StageSound, he]
    · simp only [StageSound, he]
    · simp only [StageSound, he]
    · dsimp only
      rw [he]
      refine stageSound_resolve hst.2 fun c' hc' _ => ?_
      rw [hst.1] at hc'
      obtain rfl := File.good.inj hc'
      exact hk
  | forget c => exact ⟨h.removeEnrollment _, trivial⟩
  | discard =>
    rw [hw] at hst
    exact ⟨h.removeEnrollment _, rfl, hst.frame rfl fun _ hk => hk⟩
  | begin =>
    rw [hw] at hst
    exact ⟨sound_begin h hst.1 _, rfl, holds_newSession fair w.now w.server,
      hst.2.frame rfl fun _ hk => (knows_congr begin_credentials).1 hk⟩
  | save s =>
    rw [hw] at hst
    obtain ⟨ho, hh, hdead⟩ := hst
    exact ⟨h.setEnrollment ho hh hdead _, rfl, ho⟩
  | wait s interval =>
    rw [hw] at hst
    refine ⟨h.setStage _, ?_⟩
    unfold StageSound
    dsimp only
    by_cases hexp : s.isExpired w.now = true
    · rw [if_pos hexp]
      trivial
    · rw [if_neg hexp]
      exact hst
  | poll s interval =>
    rw [hw] at hst
    exact ⟨sound_token h hst.1 hst.2 _, stageSound_polled interval _ hst.1 hst.2⟩
  | dismiss e => exact ⟨h.removeEnrollment _, trivial⟩
  | verify s =>
    rw [hw] at hst
    refine ⟨h.setStage _, ?_⟩
    rcases verified_cases env w s with ⟨e, he⟩ | ⟨ident, -, hdev, hcred, he⟩
    · simp only [StageSound, he]
    · simp only [StageSound, he]
      exact ⟨hst.1, hst.2, hdev.symm, hcred.symm⟩
  | saveCredential s c =>
    rw [hw] at hst
    obtain ⟨hs, ho, hids⟩ := hst
    exact ⟨h.setCredential hs ho hids _, ho⟩
  | saveConfig s c =>
    rw [hw] at hst
    cases hload : w.disk.config.load with
    | error e => exact ⟨h.setStage _, trivial⟩
    | ok cfg => exact ⟨h.setConfig hst _, trivial⟩
  | cleanUp c => exact ⟨h.removeEnrollment _, trivial⟩

theorem sound_fail (h : Sound env origin w) (hst : StageSound env origin w) (lost : Bool) :
    Sound env origin (fail env lost w) ∧ StageSound env origin (fail env lost w) := by
  unfold StageSound at hst
  unfold fail
  cases hw : w.stage with
  | idle | done =>
    refine ⟨h, ?_⟩
    unfold StageSound
    rw [hw]
    trivial
  | poll s interval =>
    rw [hw] at hst
    cases lost with
    | false => exact ⟨h.setStage _, hst⟩
    | true => exact ⟨sound_token h hst.1 hst.2 _, hst⟩
  | begin =>
    rw [hw] at hst
    cases lost with
    | false => exact ⟨h.setStage _, trivial⟩
    | true => exact ⟨sound_begin h hst.1 _, trivial⟩
  | identify | forget | discard | save | wait | dismiss | verify | saveCredential | saveConfig
  | cleanUp => exact ⟨h.setStage _, trivial⟩

/-- One event. -/
theorem sound_step (fair : env.Fair origin) (h : Sound env origin w)
    (hst : StageSound env origin w) (a : Event) :
    Sound env origin (step env origin w a) ∧ StageSound env origin (step env origin w a) := by
  cases a with
  | login =>
    unfold step
    cases hw : w.stage with
    | idle | done => exact ⟨h.setStage _, stageSound_start⟩
    | identify | forget | discard | begin | save | wait | poll | dismiss | verify | saveCredential
    | saveConfig | cleanUp => exact ⟨h, hst⟩
  | proceed => exact sound_proceed fair h hst
  | slow =>
    unfold step
    cases hw : w.stage with
    | poll s interval =>
      unfold StageSound at hst
      rw [hw] at hst
      exact ⟨h.setStage _, stageSound_polled interval .slowDown hst.1 hst.2⟩
    | idle | done | identify | forget | discard | begin | save | wait | dismiss | verify
    | saveCredential | saveConfig | cleanUp => exact ⟨h, hst⟩
  | fail lost => exact sound_fail h hst lost
  | crash => exact ⟨h.setStage _, trivial⟩
  | approve deviceCode userId =>
    have hk (c : DeviceCredential) : (w.server.approve env w.now deviceCode userId).Knows env w.now c →
        w.server.Knows env w.now c := (knows_congr approve_credentials).1
    exact ⟨h.frame rfl (fun s _ hh => holds_approve hh) fun c _ _ _ _ hknow => .inl (hk c hknow),
      hst.frame rfl rfl (fun s hh => holds_approve hh) hk⟩
  | tick ms =>
    exact ⟨h.frame rfl (fun _ _ hh => hh) fun c _ _ _ _ hknow => .inl hknow.earlier,
      hst.frame rfl rfl (fun _ hh => hh) fun c hknow => hknow.earlier⟩

end

end Ceo.Connector.Login
