import Ceo.Connector.Consented

/-!
# Whom a device acts for

The results about enrollment, over every order in which pages, decisions,
polls, revocations and restarts come, and a run that shows them: an enrollment
is begun, looked at, approved, and polled before, after and too soon.
-/

namespace Ceo.Connector.Enrollment

open Ceo.Lib

variable {S : Service} {s t : State}

/-- The indexes of the store lead to the enrollments there are, no more and no fewer, and these are
never more than allowed. -/
theorem indexes_exact (hs : ((server S).guard (drawsFresh S)).Reachable s) :
    (∀ code id, s.store.userCodeIndex code = some id ↔
      ∃ e ∈ s.store.enrollments.items, e.userCode = code ∧ e.enrollmentId = id) ∧
    (∀ digest e, s.store.lookupByDeviceCodeDigest digest = some e ↔
      e ∈ s.store.enrollments.items ∧ e.deviceCodeDigest = digest) ∧
    s.store.enrollments.items.length ≤ S.maxActive := by
  have hi := (reachable_drawn hs).indexed
  exact ⟨hi.userCodes, fun _ _ => hi.deviceCodes.bind_find, hi.room⟩

/-- A request that is let pass acts for a user who approved the enrollment of that device and
credential, and brings the secret whose digest was enrolled. -/
theorem authenticated_consented (hs : (server S).Reachable s) {token : String} {now : Int}
    {a : DeviceAuthIdentity} (h : s.db.authenticate S token now = some a) :
    ∃ e secret, .approved e a.userId ∈ s.history ∧ e.reservedDeviceId = a.deviceId ∧
      e.reservedCredentialId = a.credentialId ∧
      parseDeviceBearerToken token = some ⟨a.credentialId, secret⟩ ∧
      S.sha256Hex secret = e.credentialSecretDigest := by
  obtain ⟨secret, hparsed, c, hc, hcid, -, -, hcdev, hsecret, d, hd, hdid, howner, -, -⟩ :=
    authenticate_eq_some.1 h
  obtain ⟨e, userId, hg, hce⟩ := (reachable_sound hs).credential c hc
  obtain ⟨d', hd', hdid', howner'⟩ := hg.device
  obtain ⟨c', hc', hcid', hcdev', hcsecret'⟩ := hg.credential
  obtain rfl : c = c' := Keyed.eq_of_key hc hc' (hce.trans hcid'.symm)
  obtain rfl : d = d' := Keyed.eq_of_key hd hd' (hdid.trans (hcdev.symm.trans (hcdev'.trans hdid'.symm)))
  obtain rfl : a.userId = userId := howner.symm.trans howner'
  exact ⟨e, secret, hg.approved, hcdev'.symm.trans hcdev, hce.symm.trans hcid, hparsed,
    hsecret.trans hcsecret'⟩

/-- Revocation is final: a device or credential that some state has as revoked, as expired or as
another's lets no request pass in any later state. -/
theorem revocation_final {l : List (Request × Clock)} (h : (server S).Run s l t) {token : String}
    {now : Int} {a : DeviceAuthIdentity} (ha : t.db.authenticate S token now = some a) :
    (∀ d ∈ s.db.devices.items, d.id = a.deviceId → d.revokedAtMs = none ∧ d.userId = a.userId) ∧
    ∀ c ∈ s.db.credentials.items, c.id = a.credentialId →
      c.revokedAtMs = none ∧ c.deviceId = a.deviceId ∧ now < c.expiresAtMs := by
  have hl := run_later h
  obtain ⟨-, -, c, hc, hcid, hcr, hexp, hcdev, -, d, hd, hdid, howner, hdr, -⟩ :=
    authenticate_eq_some.1 ha
  constructor
  · intro d₀ hd₀ hid₀
    obtain ⟨d', hd', hk⟩ := hl.devices d₀ hd₀
    obtain rfl : d = d' := Keyed.eq_of_key hd hd' (hdid.trans (hid₀.symm.trans hk.id.symm))
    refine ⟨?_, hk.userId.symm.trans howner⟩
    by_contra hne
    have hsome : d₀.revokedAtMs.isSome := Option.isSome_iff_ne_none.2 hne
    exact hne ((hk.revoked hsome).symm.trans hdr)
  · intro c₀ hc₀ hid₀
    obtain ⟨c', hc', hk⟩ := hl.credentials c₀ hc₀
    obtain rfl : c = c' := Keyed.eq_of_key hc hc' (hcid.trans (hid₀.symm.trans hk.id.symm))
    refine ⟨?_, hk.deviceId.symm.trans hcdev, hk.expiresAtMs ▸ hexp⟩
    by_contra hne
    have hsome : c₀.revokedAtMs.isSome := Option.isSome_iff_ne_none.2 hne
    exact hne ((hk.revoked hsome).symm.trans hcr)

/-- All polls for one device code are answered with one device and one credential, and at most one
answer about a device is not a replay. -/
theorem answers_agree (hs : ((server S).guard (drawsFresh S)).Reachable s) :
    (∀ digest deviceId credentialId replayed deviceId' credentialId' replayed',
      .answered digest deviceId credentialId replayed ∈ s.history →
      .answered digest deviceId' credentialId' replayed' ∈ s.history →
        deviceId' = deviceId ∧ credentialId' = credentialId) ∧
    (firsts s).Nodup :=
  ⟨(reachable_drawn hs).agreeing.answers, (reachable_drawn hs).firsts⟩

/-- What a poll answers is worth something: with the enrolled secret, the token of the credential
lets its requests pass for the user who approved, until the device or the credential is revoked, the
credential expires or the user is disabled. -/
theorem answered_authenticates (hs : ((server S).guard (drawsFresh S)).Reachable s)
    {digest deviceId credentialId : String} {replayed : Bool}
    (h : .answered digest deviceId credentialId replayed ∈ s.history) :
    ∃ e, ∃ d ∈ s.db.devices.items, ∃ c ∈ s.db.credentials.items,
      .approved e d.userId ∈ s.history ∧ e.deviceCodeDigest = digest ∧ d.id = deviceId ∧
      c.id = credentialId ∧
      ∀ secret now, secret ≠ "" → S.sha256Hex secret = e.credentialSecretDigest →
        (s.db.authenticate S (bearerToken credentialId secret) now =
            some ⟨d.userId, deviceId, credentialId⟩ ↔
          d.revokedAtMs = none ∧ c.revokedAtMs = none ∧ now < c.expiresAtMs ∧
            s.db.activeUsers d.userId = true) := by
  have hI := reachable_drawn hs
  have hid := hI.agreeing.credentialId _ _ _ _ h
  obtain ⟨e, userId, hg, rfl, rfl, rfl⟩ := hI.sound.answered _ _ _ _ h
  obtain ⟨d, hd, hdid, rfl⟩ := hg.device
  obtain ⟨c, hc, hcid, hcdev, hcsecret⟩ := hg.credential
  refine ⟨e, d, hd, c, hc, hg.approved, rfl, hdid, hcid, fun secret now hne hsecret => ?_⟩
  rw [authenticate_eq_some]
  constructor
  · rintro ⟨-, -, c', hc', hcid', hcr, hexp, -, -, d', hd', hdid', -, hdr, hactive⟩
    obtain rfl : c = c' := Keyed.eq_of_key hc hc' (hcid.trans hcid'.symm)
    obtain rfl : d = d' := Keyed.eq_of_key hd hd' (hdid.trans hdid'.symm)
    exact ⟨hdr, hcr, hexp, hactive⟩
  · rintro ⟨hdr, hcr, hexp, hactive⟩
    exact ⟨secret, parse_bearerToken hid hne, c, hc, hcid, hcr, hexp, hcdev,
      hsecret.trans hcsecret.symm, d, hd, hdid, rfl, hdr, hactive⟩

namespace Sample

/-- SHA-256 of the texts below. -/
def sha256Hex (s : String) : String :=
  if s = "device-code" then "0a4586339d00e4986ab431b5f988662baf690253344db951edb3b19e34c6c404"
  else if s = "nonce" then "78377b525757b494427f89014f97d79928f3938d14eb51e20fb5dec9834eb304"
  else "2bb80d537b1da3e38bd30361aa855686bde0eacd7162fef6a25fe97bf527a25b"

def service : Service where
  maxActive := 1024
  ttlMs := 600000
  sha256Hex := sha256Hex
  toLowerCase := id
  toUpperCase := id

def secretDigest : String := "2bb80d537b1da3e38bd30361aa855686bde0eacd7162fef6a25fe97bf527a25b"
def deviceId : String := "dev_1"
def credentialId : String := "dcr_01234567-89ab-cdef-0123-456789abcdef"

def fresh : State := ⟨.empty, ⟨fun u => u == "usr", .empty, .empty⟩, []⟩

def steps : List (Request × Clock) :=
  [(.begin ⟨"laptop", "linux", secretDigest⟩
      ⟨["2345-6789"], "device-code", "enr_1", deviceId, credentialId⟩, fun _ => 1000),
    (.poll "device-code", fun _ => 2000),
    (.consentPage (some "usr") "2345-6789" "nonce", fun _ => 3000),
    (.decide (some "usr") "2345-6789" "nonce" "approve", fun _ => 4000),
    (.poll "device-code", fun _ => 5000),
    (.poll "device-code", fun _ => 6000),
    (.poll "device-code", fun _ => 8000)]

def identity : DeviceAuthIdentity := ⟨"usr", deviceId, credentialId⟩

def passes (s : State) : Bool :=
  s.db.authenticate service (bearerToken credentialId "secret") 9000 == some identity

def run (s : State) (l : List (Request × Clock)) : Option State :=
  l.foldlM (fun s a => (handle service s a.2 a.1).map (·.1)) s

/-- What is checked of the end: the answers there were, and that the token is good, also after one
more poll. -/
def ended (s : State) : Bool :=
  s.history.any (· == .answered (sha256Hex "device-code") deviceId credentialId false) &&
  s.history.any (· == .answered (sha256Hex "device-code") deviceId credentialId true) &&
  s.store.enrollments.items.map (·.state) == [.consumed] && passes s &&
  (run s [(.poll "device-code", fun _ => 20000)]).any passes

theorem fresh_initial : Initial fresh := ⟨rfl, rfl, rfl, rfl⟩

def isBegin : Request → Bool
  | .begin _ _ => true
  | _ => false

/-- Only what begins an enrollment draws. -/
theorem run_drawsFresh {l : List (Request × Clock)} (hl : ∀ a ∈ l, isBegin a.1 = false)
    (h : (server S).Run s l t) : ((server S).guard (drawsFresh S)).Run s l t := by
  induction h with
  | nil => exact .nil _
  | @cons s u r a l hstep _ ih =>
    obtain ⟨hhead, htail⟩ := List.forall_mem_cons.1 hl
    refine .cons ⟨?_, hstep⟩ (ih htail)
    obtain ⟨request, clock⟩ := a
    cases request with
    | begin => cases hhead
    | consentPage | decide | poll | revokeSelf | revokeByUser | revokeCredential | setUserActive |
      restart => exact trivial

theorem ran : ∃ s, ((server service).guard (drawsFresh service)).Run fresh steps s ∧
    ended s = true := by
  have hcheck : (run fresh steps).any ended = true := by decide +kernel
  obtain ⟨s, hrun, hend⟩ := LTS.exists_run_ofOption Initial hcheck
  refine ⟨s, ?_, hend⟩
  cases hrun with
  | cons hfirst hrest =>
    refine .cons ⟨⟨fun e he => ?_, fun _ _ _ h => ?_, by decide +kernel⟩, hfirst⟩
      (run_drawsFresh (by decide) hrest)
    · cases he
    · cases h

structure Ended (s : State) : Prop where
  reachable : ((server service).guard (drawsFresh service)).Reachable s
  first : .answered (sha256Hex "device-code") deviceId credentialId false ∈ s.history
  passes : s.db.authenticate service (bearerToken credentialId "secret") 9000 = some identity
  later : ∃ t, (server service).Run s [(.poll "device-code", fun _ => 20000)] t ∧
    t.db.authenticate service (bearerToken credentialId "secret") 9000 = some identity

theorem exists_ended : ∃ s, Ended s := by
  obtain ⟨s, hrun, hend⟩ := ran
  unfold ended passes at hend
  simp only [Bool.and_eq_true, List.any_eq_true, beq_iff_eq] at hend
  obtain ⟨⟨⟨⟨⟨x, hx, rfl⟩, -⟩, -⟩, hpass⟩, hlater⟩ := hend
  obtain ⟨t, ht, hpass'⟩ := LTS.exists_run_ofOption Initial hlater
  exact ⟨s, ⟨fresh, steps, fresh_initial, hrun⟩, hx, hpass, t, ht, beq_iff_eq.1 hpass'⟩

theorem indexes_exact_run : ∃ s : State, identity.deviceId ∈ s.db.devices.items.map (·.id) ∧
    (∀ code id, s.store.userCodeIndex code = some id ↔
      ∃ e ∈ s.store.enrollments.items, e.userCode = code ∧ e.enrollmentId = id) ∧
    (∀ digest e, s.store.lookupByDeviceCodeDigest digest = some e ↔
      e ∈ s.store.enrollments.items ∧ e.deviceCodeDigest = digest) ∧
    s.store.enrollments.items.length ≤ 1024 := by
  obtain ⟨s, hs⟩ := exists_ended
  obtain ⟨-, -, c, -, -, -, -, -, -, d, hd, hid, -⟩ := authenticate_eq_some.1 hs.passes
  exact ⟨s, List.mem_map.2 ⟨d, hd, hid⟩, indexes_exact hs.reachable⟩

theorem authenticated_consented_run : ∃ s : State, ∃ e secret,
    .approved e "usr" ∈ s.history ∧ e.reservedDeviceId = deviceId ∧
      e.reservedCredentialId = credentialId ∧
      parseDeviceBearerToken (bearerToken credentialId "secret") = some ⟨credentialId, secret⟩ ∧
      sha256Hex secret = e.credentialSecretDigest := by
  obtain ⟨s, hs⟩ := exists_ended
  exact ⟨s, authenticated_consented hs.reachable.of_guard hs.passes⟩

theorem revocation_final_run : ∃ s : State, identity.deviceId ∈ s.db.devices.items.map (·.id) ∧
    (∀ d ∈ s.db.devices.items, d.id = deviceId → d.revokedAtMs = none ∧ d.userId = "usr") ∧
    ∀ c ∈ s.db.credentials.items, c.id = credentialId →
      c.revokedAtMs = none ∧ c.deviceId = deviceId ∧ 9000 < c.expiresAtMs := by
  obtain ⟨s, hs⟩ := exists_ended
  obtain ⟨t, ht, hpass⟩ := hs.later
  obtain ⟨-, -, c, -, -, -, -, -, -, d, hd, hid, -⟩ := authenticate_eq_some.1 hs.passes
  exact ⟨s, List.mem_map.2 ⟨d, hd, hid⟩, revocation_final ht hpass⟩

theorem answers_agree_run : ∃ s : State, deviceId ∈ firsts s ∧
    (∀ digest deviceId credentialId replayed deviceId' credentialId' replayed',
      .answered digest deviceId credentialId replayed ∈ s.history →
      .answered digest deviceId' credentialId' replayed' ∈ s.history →
        deviceId' = deviceId ∧ credentialId' = credentialId) ∧
    (firsts s).Nodup := by
  obtain ⟨s, hs⟩ := exists_ended
  exact ⟨s, List.mem_filterMap.2 ⟨_, hs.first, rfl⟩, answers_agree hs.reachable⟩

theorem answered_authenticates_run : ∃ s : State, ∃ e,
    ∃ d ∈ s.db.devices.items, ∃ c ∈ s.db.credentials.items,
      .approved e d.userId ∈ s.history ∧ e.deviceCodeDigest = sha256Hex "device-code" ∧
      d.id = deviceId ∧ c.id = credentialId ∧
      ∀ secret now, secret ≠ "" → sha256Hex secret = e.credentialSecretDigest →
        (s.db.authenticate service (bearerToken credentialId secret) now =
            some ⟨d.userId, deviceId, credentialId⟩ ↔
          d.revokedAtMs = none ∧ c.revokedAtMs = none ∧ now < c.expiresAtMs ∧
            s.db.activeUsers d.userId = true) := by
  obtain ⟨s, hs⟩ := exists_ended
  exact ⟨s, answered_authenticates hs.reachable hs.first⟩

end Sample

end Ceo.Connector.Enrollment
