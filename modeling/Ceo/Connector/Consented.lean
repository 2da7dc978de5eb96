import Ceo.Connector.Enrolled

/-!
# What a consent is good for

Behind every device, every credential and every answer to a device code stands
one approval, by the user the device belongs to (`Sound`). Where what is drawn
is new, the indexes of the store lead to exactly the enrollments there are
(`Indexed`), and all answers to one device code are about one device
(`Agreeing`).
-/

namespace Ceo.Connector.Enrollment

open Ceo.Lib
open Ceo.Connector.Eligibility (DeviceRecord)

variable {S : Service} {fresh : Prop} {s t : State}

/-! ### what stays -/

structure DeviceKept (d d' : DeviceRecord) : Prop where
  id : d'.id = d.id
  userId : d'.userId = d.userId
  revoked : d.revokedAtMs.isSome → d'.revokedAtMs = d.revokedAtMs

structure CredentialKept (c c' : DeviceCredentialRecord) : Prop where
  id : c'.id = c.id
  deviceId : c'.deviceId = c.deviceId
  secretDigest : c'.secretDigest = c.secretDigest
  expiresAtMs : c'.expiresAtMs = c.expiresAtMs
  revoked : c.revokedAtMs.isSome → c'.revokedAtMs = c.revokedAtMs

theorem DeviceKept.refl (d : DeviceRecord) : DeviceKept d d := ⟨rfl, rfl, fun _ => rfl⟩

theorem DeviceKept.trans {d d' d'' : DeviceRecord} (h : DeviceKept d d') (h' : DeviceKept d' d'') :
    DeviceKept d d'' where
  id := h'.id.trans h.id
  userId := h'.userId.trans h.userId
  revoked hr := (h'.revoked ((h.revoked hr).symm ▸ hr)).trans (h.revoked hr)

theorem CredentialKept.refl (c : DeviceCredentialRecord) : CredentialKept c c :=
  ⟨rfl, rfl, rfl, rfl, fun _ => rfl⟩

theorem CredentialKept.trans {c c' c'' : DeviceCredentialRecord} (h : CredentialKept c c')
    (h' : CredentialKept c' c'') : CredentialKept c c'' where
  id := h'.id.trans h.id
  deviceId := h'.deviceId.trans h.deviceId
  secretDigest := h'.secretDigest.trans h.secretDigest
  expiresAtMs := h'.expiresAtMs.trans h.expiresAtMs
  revoked hr := (h'.revoked ((h.revoked hr).symm ▸ hr)).trans (h.revoked hr)

/-- Nothing is forgotten, and a row is only ever revoked. -/
structure Later (s t : State) : Prop where
  history : ∀ x ∈ s.history, x ∈ t.history
  devices : ∀ d ∈ s.db.devices.items, ∃ d' ∈ t.db.devices.items, DeviceKept d d'
  credentials : ∀ c ∈ s.db.credentials.items, ∃ c' ∈ t.db.credentials.items, CredentialKept c c'

theorem Later.refl (s : State) : Later s s :=
  ⟨fun _ h => h, fun d h => ⟨d, h, .refl d⟩, fun c h => ⟨c, h, .refl c⟩⟩

theorem Later.trans {r : State} (h : Later s t) (h' : Later t r) : Later s r where
  history x hx := h'.history x (h.history x hx)
  devices d hd := by
    obtain ⟨d', hd', hk⟩ := h.devices d hd
    obtain ⟨d'', hd'', hk'⟩ := h'.devices d' hd'
    exact ⟨d'', hd'', hk.trans hk'⟩
  credentials c hc := by
    obtain ⟨c', hc', hk⟩ := h.credentials c hc
    obtain ⟨c'', hc'', hk'⟩ := h'.credentials c' hc'
    exact ⟨c'', hc'', hk.trans hk'⟩

/-- The rows stay as they are. -/
theorem Later.of_rows (hd : t.db.devices = s.db.devices) (hc : t.db.credentials = s.db.credentials)
    (hh : ∀ x ∈ s.history, x ∈ t.history) : Later s t :=
  ⟨hh, fun d h => ⟨d, hd.symm ▸ h, .refl d⟩, fun c h => ⟨c, hc.symm ▸ h, .refl c⟩⟩

theorem Effect.later (h : Effect S fresh s t) : Later s t := by
  have more {x : List Event} : ∀ a ∈ s.history, a ∈ s.history ++ x :=
    fun _ ha => List.mem_append_left _ ha
  cases h with
  | forgot | recorded | changed | consumed | users | restarted =>
    exact .of_rows rfl rfl fun _ hx => hx
  | approved | answered => exact .of_rows rfl rfl more
  | inserted _ _ _ hid _ _ hnone hins =>
    refine ⟨more, fun d hd => ⟨d, ?_, .refl d⟩, fun c hc => ⟨c, ?_, .refl c⟩⟩
    · exact (Keyed.mem_add (hid ▸ not_mem_of_find hnone)).2 (.inr hd)
    · exact ((Keyed.insert_eq_some hins).2.2 c).2 (.inr hc)
  | revokedDevice =>
    refine ⟨fun _ hx => hx, fun d hd => ?_, fun c hc => ⟨c, hc, .refl c⟩⟩
    refine ⟨_, (Keyed.mem_update (by intro _; rfl)).2 ⟨d, hd, rfl⟩, ?_⟩
    split
    next hp =>
      refine ⟨rfl, rfl, fun hr => ?_⟩
      simp only [Bool.and_eq_true, Option.isNone_iff_eq_none] at hp
      rw [hp.2] at hr
      cases hr
    · exact .refl d
  | revokedCredential =>
    refine ⟨fun _ hx => hx, fun d hd => ⟨d, hd, .refl d⟩, fun c hc => ?_⟩
    refine ⟨_, (Keyed.mem_update (by intro _; rfl)).2 ⟨c, hc, rfl⟩, ?_⟩
    split
    next hp =>
      refine ⟨rfl, rfl, rfl, rfl, fun hr => ?_⟩
      simp only [Bool.and_eq_true, Option.isNone_iff_eq_none] at hp
      rw [hp.2] at hr
      cases hr
    · exact .refl c

theorem Effects.inv {I : State → Prop} (keep : ∀ {s t}, I s → Effect S fresh s t → I t)
    (h : Effects S fresh s t) (hs : I s) : I t := by
  induction h with
  | refl => exact hs
  | tail _ he ih => exact keep ih he

theorem Effects.later (h : Effects S fresh s t) : Later s t :=
  Effects.inv (I := Later s) (fun hl he => hl.trans he.later) h (.refl s)

theorem run_later {l : List (Request × Clock)} (h : (server S).Run s l t) : Later s t :=
  h.rel (I := fun _ => True) Later.refl Later.trans (fun _ _ => trivial)
    (fun _ hstep => (step_effects hstep).later) trivial

/-! ### every device has its consent -/

/-- The user approved the enrollment, and its device and its credential are there. -/
structure Granted (s : State) (e : DeviceEnrollment) (userId : String) : Prop where
  approved : .approved e userId ∈ s.history
  device : ∃ d ∈ s.db.devices.items, d.id = e.reservedDeviceId ∧ d.userId = userId
  credential : ∃ c ∈ s.db.credentials.items, c.id = e.reservedCredentialId ∧
    c.deviceId = e.reservedDeviceId ∧ c.secretDigest = e.credentialSecretDigest

theorem Granted.later {e : DeviceEnrollment} {userId : String} (h : Granted s e userId)
    (hl : Later s t) : Granted t e userId where
  approved := hl.history _ h.approved
  device := by
    obtain ⟨d, hd, hid, howner⟩ := h.device
    obtain ⟨d', hd', hk⟩ := hl.devices d hd
    exact ⟨d', hd', hk.id.trans hid, hk.userId.trans howner⟩
  credential := by
    obtain ⟨c, hc, hid, hdev, hsecret⟩ := h.credential
    obtain ⟨c', hc', hk⟩ := hl.credentials c hc
    exact ⟨c', hc', hk.id.trans hid, hk.deviceId.trans hdev, hk.secretDigest.trans hsecret⟩

/-- The approval that an enrollment is past. -/
def Consented (s : State) (e : DeviceEnrollment) : Prop :=
  ∃ userId e₀, e.approvedUserId = some userId ∧ .approved e₀ userId ∈ s.history ∧
    SameEnrollment e₀ e ∧ (e.state = .consumed → Granted s e₀ userId)

def Answered (s : State) (digest deviceId credentialId : String) : Prop :=
  ∃ e userId, Granted s e userId ∧ e.deviceCodeDigest = digest ∧ e.reservedDeviceId = deviceId ∧
    e.reservedCredentialId = credentialId

structure Sound (s : State) : Prop where
  enrollment : ∀ e ∈ s.store.enrollments.items,
    e.state = .approved ∨ e.state = .consumed → Consented s e
  credential : ∀ c ∈ s.db.credentials.items, ∃ e userId, Granted s e userId ∧
    c.id = e.reservedCredentialId
  answered : ∀ digest deviceId credentialId replayed,
    .answered digest deviceId credentialId replayed ∈ s.history →
      Answered s digest deviceId credentialId

theorem SameEnrollment.trans {e e' e'' : DeviceEnrollment} (h : SameEnrollment e e')
    (h' : SameEnrollment e' e'') : SameEnrollment e e'' where
  enrollmentId := h'.enrollmentId.trans h.enrollmentId
  deviceCodeDigest := h'.deviceCodeDigest.trans h.deviceCodeDigest
  userCode := h'.userCode.trans h.userCode
  reservedDeviceId := h'.reservedDeviceId.trans h.reservedDeviceId
  reservedCredentialId := h'.reservedCredentialId.trans h.reservedCredentialId
  displayName := h'.displayName.trans h.displayName
  credentialSecretDigest := h'.credentialSecretDigest.trans h.credentialSecretDigest

/-- What is new has its consent; what is old keeps it. -/
theorem Sound.next (hs : Sound s) (hl : Later s t)
    (enrollment : ∀ e ∈ t.store.enrollments.items, e.state = .approved ∨ e.state = .consumed →
      (∃ a ∈ s.store.enrollments.items, SameEnrollment a e ∧ e.state = a.state ∧
        e.approvedUserId = a.approvedUserId) ∨ Consented t e)
    (credential : ∀ c ∈ t.db.credentials.items,
      (∃ a ∈ s.db.credentials.items, c.id = a.id) ∨
        ∃ e userId, Granted t e userId ∧ c.id = e.reservedCredentialId)
    (answered : ∀ digest deviceId credentialId replayed,
      .answered digest deviceId credentialId replayed ∈ t.history →
        .answered digest deviceId credentialId replayed ∈ s.history ∨
          Answered t digest deviceId credentialId) : Sound t where
  enrollment e he hstate := by
    rcases enrollment e he hstate with ⟨a, ha, hsame, hst, huser⟩ | hnew
    · obtain ⟨userId, e₀, hu, happ, hsame₀, hgranted⟩ := hs.enrollment a ha (hst ▸ hstate)
      exact ⟨userId, e₀, huser.trans hu, hl.history _ happ, hsame₀.trans hsame,
        fun hc => (hgranted (hst.symm.trans hc)).later hl⟩
    · exact hnew
  credential c hc := by
    rcases credential c hc with ⟨a, ha, hid⟩ | hnew
    · obtain ⟨e, userId, hg, hida⟩ := hs.credential a ha
      exact ⟨e, userId, hg.later hl, hid.trans hida⟩
    · exact hnew
  answered digest deviceId credentialId replayed h := by
    rcases answered digest deviceId credentialId replayed h with hold | hnew
    · obtain ⟨e, userId, hg, hrest⟩ := hs.answered _ _ _ _ hold
      exact ⟨e, userId, hg.later hl, hrest⟩
    · exact hnew

/-- An approved enrollment with its rows has been granted. -/
theorem Sound.granted (hs : Sound s) {e : DeviceEnrollment} {device : DeviceRecord}
    {credential : DeviceCredentialRecord} (he : e ∈ s.store.enrollments.items)
    (hstate : e.state = .approved) (hd : s.db.devices.find e.reservedDeviceId = some device)
    (hc : s.db.credentials.find e.reservedCredentialId = some credential)
    (hrows : Matches e device credential) :
    ∃ e₀, SameEnrollment e₀ e ∧ Granted s e₀ device.userId := by
  obtain ⟨userId, e₀, huser, happ, hsame, -⟩ := hs.enrollment e he (.inl hstate)
  obtain rfl : device.userId = userId := Option.some.inj (hrows.owner.symm.trans huser)
  obtain ⟨hdmem, hdid⟩ := Keyed.find_eq_some hd
  obtain ⟨hcmem, hcid⟩ := Keyed.find_eq_some hc
  exact ⟨e₀, hsame, happ, ⟨device, hdmem, hdid.trans hsame.reservedDeviceId, rfl⟩,
    ⟨credential, hcmem, hcid.trans hsame.reservedCredentialId,
      hrows.deviceId.trans hsame.reservedDeviceId,
      hrows.secretDigest.trans hsame.credentialSecretDigest⟩⟩

theorem Effect.sound (hs : Sound s) (h : Effect S fresh s t) : Sound t := by
  have hl := h.later
  have sameStore {e : DeviceEnrollment} (he : e ∈ s.store.enrollments.items) :
      ∃ a ∈ s.store.enrollments.items, SameEnrollment a e ∧ e.state = a.state ∧
        e.approvedUserId = a.approvedUserId := ⟨e, he, .refl e, rfl, rfl⟩
  cases h with
  | forgot =>
    exact hs.next hl (fun e he _ => .inl (sameStore (Keyed.mem_erase.1 he).1))
      (fun c hc => .inl ⟨c, hc, rfl⟩) (fun _ _ _ _ h => .inl h)
  | recorded _ _ hpending _ =>
    refine hs.next hl (fun e he hstate => ?_) (fun c hc => .inl ⟨c, hc, rfl⟩)
      (fun _ _ _ _ h => .inl h)
    rcases Keyed.mem_set.1 he with rfl | ⟨he, -⟩
    · rw [hpending] at hstate
      rcases hstate with h | h <;> cases h
    · exact .inl (sameStore he)
  | changed hmem hsame hstate' huser =>
    refine hs.next hl (fun e he hstate => ?_) (fun c hc => .inl ⟨c, hc, rfl⟩)
      (fun _ _ _ _ h => .inl h)
    rcases (Keyed.mem_put hmem hsame.enrollmentId).1 he with rfl | ⟨he, -⟩
    · rcases hstate' with heq | hdenied
      · exact .inl ⟨_, hmem, hsame, heq, huser⟩
      · rw [hdenied] at hstate
        rcases hstate with h | h <;> cases h
    · exact .inl (sameStore he)
  | @approved e e' userId hmem hsame hst huser _ =>
    refine hs.next hl (fun a ha _ => ?_) (fun c hc => .inl ⟨c, hc, rfl⟩) (fun _ _ _ _ h => ?_)
    · rcases (Keyed.mem_put hmem hsame.enrollmentId).1 ha with rfl | ⟨ha, -⟩
      · refine .inr ⟨userId, e, huser, List.mem_append_right _ (List.mem_singleton.2 rfl), hsame, ?_⟩
        intro hc
        rw [hst] at hc
        cases hc
      · exact .inl (sameStore ha)
    · rcases List.mem_append.1 h with h | h
      · exact .inl h
      · cases List.mem_singleton.1 h
  | @inserted e userId device issuedAt credentials hmem hst huser hid howner _ hnone hins =>
    obtain ⟨u, e₀, hu, happ, hsame, -⟩ := hs.enrollment e hmem (.inl hst)
    obtain rfl : userId = u := Option.some.inj (huser.symm.trans hu)
    have hcred : credentialOf e issuedAt ∈ credentials.items :=
      ((Keyed.insert_eq_some hins).2.2 _).2 (.inl rfl)
    have hdev : device ∈ (s.db.devices.add device).items :=
      (Keyed.mem_add (hid ▸ not_mem_of_find hnone)).2 (.inl rfl)
    have hgranted : Granted { s with
        db := { s.db with devices := s.db.devices.add device, credentials }
        history := s.history ++
          [.answered e.deviceCodeDigest e.reservedDeviceId e.reservedCredentialId false] } e₀ userId :=
      ⟨hl.history _ happ, ⟨device, hdev, hid.trans hsame.reservedDeviceId, howner⟩,
        ⟨_, hcred, hsame.reservedCredentialId, hsame.reservedDeviceId, hsame.credentialSecretDigest⟩⟩
    refine hs.next hl (fun a ha _ => .inl (sameStore ha)) (fun c hc => ?_) (fun _ _ _ _ h => ?_)
    · rcases ((Keyed.insert_eq_some hins).2.2 c).1 hc with rfl | hc
      · exact .inr ⟨e₀, userId, hgranted, hsame.reservedCredentialId⟩
      · exact .inl ⟨c, hc, rfl⟩
    · rcases List.mem_append.1 h with h | h
      · exact .inl h
      · cases List.mem_singleton.1 h
        exact .inr ⟨e₀, userId, hgranted, hsame.deviceCodeDigest.symm, hsame.reservedDeviceId.symm,
          hsame.reservedCredentialId.symm⟩
  | @answered e device credential hmem hst hd hc =>
    obtain ⟨e₀, userId, hsame, hgranted⟩ : ∃ e₀ userId, SameEnrollment e₀ e ∧ Granted s e₀ userId := by
      rcases hst with hst | ⟨hst, hrows⟩
      · obtain ⟨userId, e₀, -, -, hsame, hgranted⟩ := hs.enrollment e hmem (.inr hst)
        exact ⟨e₀, userId, hsame, hgranted hst⟩
      · obtain ⟨e₀, hsame, hgranted⟩ := hs.granted hmem hst hd hc hrows
        exact ⟨e₀, device.userId, hsame, hgranted⟩
    refine hs.next hl (fun a ha _ => .inl (sameStore ha)) (fun c hc => .inl ⟨c, hc, rfl⟩)
      (fun _ _ _ _ h => ?_)
    rcases List.mem_append.1 h with h | h
    · exact .inl h
    · cases List.mem_singleton.1 h
      exact .inr ⟨e₀, userId, hgranted.later hl, hsame.deviceCodeDigest.symm,
        hsame.reservedDeviceId.symm, hsame.reservedCredentialId.symm⟩
  | @consumed e e' device credential hmem hsame hst huser hd hc hrows =>
    refine hs.next hl (fun a ha _ => ?_) (fun c hc => .inl ⟨c, hc, rfl⟩) (fun _ _ _ _ h => .inl h)
    rcases (Keyed.mem_put hmem hsame.enrollmentId).1 ha with rfl | ⟨ha, -⟩
    · obtain ⟨e₀, hsame₀, hgranted⟩ := hs.granted hmem hst hd hc hrows
      exact .inr ⟨device.userId, e₀, huser.trans hrows.owner, hl.history _ hgranted.approved,
        hsame₀.trans hsame, fun _ => hgranted.later hl⟩
    · exact .inl (sameStore ha)
  | revokedDevice | users =>
    exact hs.next hl (fun a ha _ => .inl (sameStore ha)) (fun c hc => .inl ⟨c, hc, rfl⟩)
      (fun _ _ _ _ h => .inl h)
  | revokedCredential =>
    refine hs.next hl (fun a ha _ => .inl (sameStore ha)) (fun c hc => .inl ?_)
      (fun _ _ _ _ h => .inl h)
    obtain ⟨a, ha, rfl⟩ := (Keyed.mem_update (by intro _; rfl)).1 hc
    exact ⟨a, ha, by split <;> rfl⟩
  | restarted =>
    exact hs.next hl (fun a ha _ => by cases ha) (fun c hc => .inl ⟨c, hc, rfl⟩)
      (fun _ _ _ _ h => .inl h)

theorem initial_sound (h : Initial s) : Sound s := by
  obtain ⟨hstore, -, hcred, hhistory⟩ := h
  refine ⟨fun e he => ?_, fun c hc => ?_, fun _ _ _ _ h => ?_⟩
  · rw [hstore] at he
    cases he
  · rw [hcred] at hc
    cases hc
  · rw [hhistory] at h
    cases h

theorem reachable_sound (hs : (server S).Reachable s) : Sound s :=
  hs.inv initial_sound fun hI h => Effects.inv Effect.sound (step_effects h) hI

/-! ### what the indexes know -/

structure Indexed (S : Service) (s : State) : Prop where
  userCodes : Indexes DeviceEnrollment.userCode s.store.userCodeIndex s.store.enrollments
  deviceCodes : Indexes DeviceEnrollment.deviceCodeDigest s.store.deviceCodeDigestIndex
    s.store.enrollments
  room : s.store.enrollments.items.length ≤ S.maxActive

theorem Indexed.change (hs : Indexed S s) {e e' : DeviceEnrollment}
    (hmem : e ∈ s.store.enrollments.items) (hsame : SameEnrollment e e') {x : List Event} :
    Indexed S { s with store := s.store.change e', history := x } where
  userCodes := hs.userCodes.put hmem hsame.enrollmentId hsame.userCode
  deviceCodes := hs.deviceCodes.put hmem hsame.enrollmentId hsame.deviceCodeDigest
  room := by
    show (s.store.enrollments.put e').items.length ≤ S.maxActive
    rw [Keyed.length_put]
    exact hs.room

theorem Effect.indexed (hs : Indexed S s) (h : Effect S True s t) : Indexed S t := by
  cases h with
  | @forgot e hmem =>
    refine ⟨hs.userCodes.erase hmem, hs.deviceCodes.erase hmem, ?_⟩
    show (s.store.enrollments.erase e.enrollmentId).items.length ≤ S.maxActive
    exact Nat.le_trans (List.length_filter_le _ _) hs.room
  | recorded hfree hroom _ hdrawn =>
    have hfresh := hdrawn trivial
    exact ⟨hs.userCodes.set hfresh.enrollmentId (hs.userCodes.free hfree),
      hs.deviceCodes.set hfresh.enrollmentId hfresh.digest, Nat.le_trans Keyed.length_set hroom⟩
  | changed hmem hsame | approved hmem hsame | consumed hmem hsame => exact hs.change hmem hsame
  | inserted | answered | revokedDevice | revokedCredential | users =>
    exact ⟨hs.userCodes, hs.deviceCodes, hs.room⟩
  | restarted => exact ⟨.empty, .empty, Nat.zero_le _⟩

theorem initial_indexed (h : Initial s) : Indexed S s := by
  obtain ⟨store, db, history⟩ := s
  obtain ⟨rfl, -⟩ := h
  exact ⟨.empty, .empty, Nat.zero_le _⟩

/-! ### what the answers agree on -/

/-- The device of an answer that is not a replay. -/
def firstOf : Event → Option String
  | .answered _ deviceId _ false => some deviceId
  | _ => none

def firsts (s : State) : List String := s.history.filterMap firstOf

structure Agreeing (s : State) : Prop where
  enrollment : ∀ e ∈ s.store.enrollments.items, credentialIdRe e.reservedCredentialId = true ∧
    ∀ deviceId credentialId replayed,
      .answered e.deviceCodeDigest deviceId credentialId replayed ∈ s.history →
        deviceId = e.reservedDeviceId ∧ credentialId = e.reservedCredentialId
  credentialId : ∀ digest deviceId credentialId replayed,
    .answered digest deviceId credentialId replayed ∈ s.history → credentialIdRe credentialId = true
  answers : ∀ digest deviceId credentialId replayed deviceId' credentialId' replayed',
    .answered digest deviceId credentialId replayed ∈ s.history →
    .answered digest deviceId' credentialId' replayed' ∈ s.history →
      deviceId' = deviceId ∧ credentialId' = credentialId

/-- The store changes under the same ids. -/
theorem Agreeing.store (hs : Agreeing s) {m : DeviceEnrollmentStore} {x : List Event}
    (hx : ∀ digest deviceId credentialId replayed,
      .answered digest deviceId credentialId replayed ∈ x →
        .answered digest deviceId credentialId replayed ∈ s.history)
    (hm : ∀ e ∈ m.enrollments.items, ∃ a ∈ s.store.enrollments.items, SameEnrollment a e) :
    Agreeing { s with store := m, history := x } where
  enrollment e he := by
    obtain ⟨a, ha, hsame⟩ := hm e he
    obtain ⟨hre, hids⟩ := hs.enrollment a ha
    rw [hsame.reservedCredentialId, hsame.reservedDeviceId, hsame.deviceCodeDigest]
    exact ⟨hre, fun d c r h => hids d c r (hx _ _ _ _ h)⟩
  credentialId g d c r h := hs.credentialId g d c r (hx _ _ _ _ h)
  answers g d c r d' c' r' h h' := hs.answers g d c r d' c' r' (hx _ _ _ _ h) (hx _ _ _ _ h')

theorem Agreeing.change (hs : Agreeing s) {e e' : DeviceEnrollment} {x : List Event}
    (hx : ∀ digest deviceId credentialId replayed,
      .answered digest deviceId credentialId replayed ∈ x →
        .answered digest deviceId credentialId replayed ∈ s.history)
    (hmem : e ∈ s.store.enrollments.items) (hsame : SameEnrollment e e') :
    Agreeing { s with store := s.store.change e', history := x } := by
  refine hs.store hx fun a ha => ?_
  rcases (Keyed.mem_put hmem hsame.enrollmentId).1 ha with rfl | ⟨ha, -⟩
  · exact ⟨e, hmem, hsame⟩
  · exact ⟨a, ha, .refl a⟩

/-- One more answer, about an enrollment there is. -/
theorem Agreeing.answer (hs : Agreeing s) (hi : Indexed S s) {e : DeviceEnrollment} {replayed : Bool}
    {db : ControlDb} (hmem : e ∈ s.store.enrollments.items) :
    Agreeing { s with
      db := db
      history := s.history ++
        [.answered e.deviceCodeDigest e.reservedDeviceId e.reservedCredentialId replayed] } where
  enrollment a ha := by
    refine ⟨(hs.enrollment a ha).1, fun d c r h => ?_⟩
    rcases List.mem_append.1 h with h | h
    · exact (hs.enrollment a ha).2 d c r h
    · obtain ⟨hdigest, rfl, rfl, -⟩ := Event.answered.inj (List.mem_singleton.1 h)
      obtain rfl := hi.deviceCodes.unique ha hmem hdigest
      exact ⟨rfl, rfl⟩
  credentialId g d c r h := by
    rcases List.mem_append.1 h with h | h
    · exact hs.credentialId g d c r h
    · obtain ⟨-, -, rfl, -⟩ := Event.answered.inj (List.mem_singleton.1 h)
      exact (hs.enrollment e hmem).1
  answers g d c r d' c' r' h h' := by
    rcases List.mem_append.1 h with h | h <;> rcases List.mem_append.1 h' with h' | h'
    · exact hs.answers g d c r d' c' r' h h'
    · obtain ⟨rfl, rfl, rfl, -⟩ := Event.answered.inj (List.mem_singleton.1 h')
      obtain ⟨hd, hc⟩ := (hs.enrollment e hmem).2 d c r h
      exact ⟨hd.symm, hc.symm⟩
    · obtain ⟨rfl, rfl, rfl, -⟩ := Event.answered.inj (List.mem_singleton.1 h)
      exact (hs.enrollment e hmem).2 d' c' r' h'
    · obtain ⟨-, rfl, rfl, -⟩ := Event.answered.inj (List.mem_singleton.1 h)
      obtain ⟨-, rfl, rfl, -⟩ := Event.answered.inj (List.mem_singleton.1 h')
      exact ⟨rfl, rfl⟩

theorem Effect.agreeing (hs : Agreeing s) (hi : Indexed S s) (h : Effect S True s t) : Agreeing t := by
  cases h with
  | forgot =>
    exact hs.store (fun _ _ _ _ h => h) fun a ha => ⟨a, (Keyed.mem_erase.1 ha).1, .refl a⟩
  | @recorded e _ _ _ hdrawn =>
    have hfresh := hdrawn trivial
    refine ⟨fun a ha => ?_, hs.credentialId, hs.answers⟩
    rcases Keyed.mem_set.1 ha with rfl | ⟨ha, -⟩
    · exact ⟨hfresh.credentialId, fun d c r h => absurd h (hfresh.unanswered d c r)⟩
    · exact hs.enrollment a ha
  | changed hmem hsame | consumed hmem hsame => exact hs.change (fun _ _ _ _ h => h) hmem hsame
  | approved hmem hsame =>
    refine hs.change (fun _ _ _ _ h => ?_) hmem hsame
    rcases List.mem_append.1 h with h | h
    · exact h
    · cases List.mem_singleton.1 h
  | inserted hmem => exact hs.answer hi hmem
  | answered hmem => exact hs.answer hi hmem
  | revokedDevice | revokedCredential | users => exact ⟨hs.enrollment, hs.credentialId, hs.answers⟩
  | restarted => exact hs.store (fun _ _ _ _ h => h) fun a ha => by cases ha

/-- A device is answered first once, for it is there from then on. -/
theorem Effect.firsts (hs : Sound s) (hn : (firsts s).Nodup) (h : Effect S fresh s t) :
    (firsts t).Nodup := by
  cases h with
  | forgot | recorded | changed | consumed | revokedDevice | revokedCredential | users | restarted =>
    exact hn
  | approved | answered =>
    unfold Enrollment.firsts
    rw [List.filterMap_append]
    exact (List.append_nil (Enrollment.firsts s)).symm ▸ hn
  | @inserted e _ _ _ _ _ _ _ _ _ _ hnone _ =>
    unfold Enrollment.firsts
    rw [List.filterMap_append]
    refine List.nodup_append.2 ⟨hn, List.nodup_singleton e.reservedDeviceId, fun d hd d' hd' heq => ?_⟩
    obtain rfl : d' = e.reservedDeviceId := List.mem_singleton.1 hd'
    obtain ⟨x, hx, hfirst⟩ := List.mem_filterMap.1 hd
    unfold firstOf at hfirst
    split at hfirst
    next =>
      obtain ⟨e₀, userId, hg, -, hdev, -⟩ := hs.answered _ _ _ _ hx
      obtain ⟨device, hmem, hid, -⟩ := hg.device
      refine not_mem_of_find hnone (List.mem_map.2 ⟨device, hmem, ?_⟩)
      rw [hid, hdev, Option.some.inj hfirst, heq]
    · cases hfirst

structure Drawn (S : Service) (s : State) : Prop where
  sound : Sound s
  indexed : Indexed S s
  agreeing : Agreeing s
  firsts : (firsts s).Nodup

theorem Effect.drawn (hs : Drawn S s) (h : Effect S True s t) : Drawn S t :=
  ⟨h.sound hs.sound, h.indexed hs.indexed, h.agreeing hs.agreeing hs.indexed,
    h.firsts hs.sound hs.firsts⟩

theorem initial_drawn (h : Initial s) : Drawn S s := by
  refine ⟨initial_sound h, initial_indexed h, ?_, ?_⟩
  · obtain ⟨store, db, history⟩ := s
    obtain ⟨rfl, -, -, rfl⟩ := h
    refine ⟨fun e he => ?_, fun _ _ _ _ h => ?_, fun _ _ _ _ _ _ _ h => ?_⟩
    · cases he
    · cases h
    · cases h
  · unfold Enrollment.firsts
    rw [h.2.2.2]
    exact List.nodup_nil

theorem reachable_drawn (hs : ((server S).guard (drawsFresh S)).Reachable s) : Drawn S s :=
  hs.inv initial_drawn fun hI h => Effects.inv Effect.drawn (guarded_effects h) hI

/-! ### the token of a device -/

/-- A character that no class of a format takes is not in its texts. -/
theorem not_mem_of_matchChars {p : Pattern} {x : Char} (hp : ∀ q ∈ p, q x = false) {cs : List Char}
    (h : Pattern.matchChars p cs = true) : x ∉ cs := by
  induction p generalizing cs with
  | nil =>
    cases cs with
    | nil => exact List.not_mem_nil
    | cons c cs => cases h
  | cons q p ih =>
    cases cs with
    | nil => exact List.not_mem_nil
    | cons c cs =>
      obtain ⟨hc, hcs⟩ := Bool.and_eq_true_iff.1 h
      intro hx
      rcases List.mem_cons.1 hx with rfl | hx
      · rw [hp q (List.mem_cons_self ..)] at hc
        cases hc
      · exact ih (fun r hr => hp r (List.mem_cons_of_mem _ hr)) hcs hx

theorem parse_bearerToken {credentialId secret : String} (hid : credentialIdRe credentialId = true)
    (hsecret : secret ≠ "") :
    parseDeviceBearerToken (bearerToken credentialId secret) = some ⟨credentialId, secret⟩ := by
  have hclass : ∀ q ∈ Pattern.lit "dcr_" ++ Pattern.uuid Pattern.hex, q '.' = false := by
    decide +kernel
  have hdot : '.' ∉ credentialId.toList := not_mem_of_matchChars hclass hid
  have hne : ∀ c ∈ credentialId.toList, Decidable.decide (c ≠ '.') = true := by
    intro c hc
    exact decide_eq_true fun h => hdot (h ▸ hc)
  have hlist : (bearerToken credentialId secret).toList =
      deviceCredentialPrefix ++ (credentialId.toList ++ '.' :: secret.toList) := by
    have dot : ".".toList = ['.'] := rfl
    unfold bearerToken deviceCredentialPrefix
    rw [String.toList_append, String.toList_append, String.toList_append, dot, List.append_assoc,
      List.append_assoc, List.singleton_append]
  have hrest : (bearerToken credentialId secret).toList.drop deviceCredentialPrefix.length =
      credentialId.toList ++ '.' :: secret.toList := by
    rw [hlist, List.drop_left]
  have htake : (credentialId.toList ++ '.' :: secret.toList).takeWhile (· ≠ '.') =
      credentialId.toList := by
    rw [List.takeWhile_append_of_pos hne]
    simp
  have hdrop : (credentialId.toList ++ '.' :: secret.toList).dropWhile (· ≠ '.') =
      '.' :: secret.toList := by
    rw [List.dropWhile_append_of_pos hne]
    simp
  unfold parseDeviceBearerToken
  rw [if_pos (hlist ▸ List.prefix_append ..)]
  dsimp only
  rw [hrest, if_pos (by simp), htake, hdrop, List.drop_one, List.tail_cons, String.ofList_toList,
    String.ofList_toList, if_neg (by simp [hid, hsecret])]

/-- What the middleware has checked when it lets a request pass. -/
theorem authenticate_eq_some {db : ControlDb} {token : String} {now : Int} {a : DeviceAuthIdentity} :
    db.authenticate S token now = some a ↔
      ∃ secret, parseDeviceBearerToken token = some ⟨a.credentialId, secret⟩ ∧
        ∃ c ∈ db.credentials.items, c.id = a.credentialId ∧ c.revokedAtMs = none ∧
          now < c.expiresAtMs ∧ c.deviceId = a.deviceId ∧ S.sha256Hex secret = c.secretDigest ∧
        ∃ d ∈ db.devices.items, d.id = a.deviceId ∧ d.userId = a.userId ∧ d.revokedAtMs = none ∧
          db.activeUsers a.userId = true := by
  constructor
  · intro h
    unfold ControlDb.authenticate at h
    split at h
    · cases h
    next parsed hparsed =>
    split at h
    · cases h
    next credential hc =>
    split at h
    · cases h
    next hlive =>
    split at h
    · cases h
    next device hd =>
    split at h
    · cases h
    next hdevice =>
    split at h
    · cases h
    next hactive =>
    split at h
    · cases h
    next hsecret =>
    cases h
    obtain ⟨hcmem, hcid⟩ := Keyed.find_eq_some hc
    obtain ⟨hdmem, hdid⟩ := Keyed.find_eq_some hd
    obtain ⟨hrevoked, hexpired⟩ := not_or.1 hlive
    refine ⟨parsed.secret, ?_, credential, hcmem, rfl, ?_, Int.not_le.1 hexpired, hdid.symm,
      not_not.1 hsecret, device, hdmem, rfl, rfl, ?_, ?_⟩
    · rw [hparsed, hcid]
    · simpa using hrevoked
    · simpa using hdevice
    · simpa using hactive
  · rintro ⟨secret, hparsed, c, hc, hcid, hcr, hexp, hcd, hsecret, d, hd, hdid, hdu, hdr, hactive⟩
    have hfindc : db.credentials.find a.credentialId = some c := hcid ▸ find_of_mem hc
    have hfindd : db.devices.find c.deviceId = some d := by
      rw [hcd, ← hdid]
      exact find_of_mem hd
    unfold ControlDb.authenticate
    rw [hparsed]
    dsimp only
    rw [hfindc]
    dsimp only
    rw [if_neg (by simp [hcr, Int.not_le.2 hexp]), hfindd]
    dsimp only
    rw [if_neg (by simp [hdr]), if_neg (by simp [hdu, hactive]), if_neg (not_not.2 hsecret), hdid, hdu,
      hcid]

end Ceo.Connector.Enrollment
