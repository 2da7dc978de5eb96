import Ceo.Connector.Enrollment
import Ceo.Lib.Index

/-!
# From a consent to a device

`Effect` says what a handler can do to the state, one change at a time; a
request is a sequence of effects. A device and its credential come into the
database together, for an enrollment that was approved, and stay there.
-/

namespace Ceo.Connector.Enrollment

open Ceo.Lib
open Ceo.Jobs (isJsSpace jsLength hex64Re)
open Ceo.Connector.Eligibility (DeviceRecord)
open Relation (ReflTransGen)

variable {S : Service} {fresh : Prop} {s t : State}

/-! ### what a request does -/

/-- All but the state of an enrollment. -/
structure SameEnrollment (e e' : DeviceEnrollment) : Prop where
  enrollmentId : e'.enrollmentId = e.enrollmentId
  deviceCodeDigest : e'.deviceCodeDigest = e.deviceCodeDigest
  userCode : e'.userCode = e.userCode
  reservedDeviceId : e'.reservedDeviceId = e.reservedDeviceId
  reservedCredentialId : e'.reservedCredentialId = e.reservedCredentialId
  displayName : e'.displayName = e.displayName
  credentialSecretDigest : e'.credentialSecretDigest = e.credentialSecretDigest

/-- The enrollment is like no other. -/
structure FreshEnrollment (s : State) (e : DeviceEnrollment) : Prop where
  enrollmentId : ∀ a ∈ s.store.enrollments.items, a.enrollmentId ≠ e.enrollmentId
  digest : ∀ a ∈ s.store.enrollments.items, a.deviceCodeDigest ≠ e.deviceCodeDigest
  unanswered : ∀ deviceId credentialId replayed,
    .answered e.deviceCodeDigest deviceId credentialId replayed ∉ s.history
  credentialId : credentialIdRe e.reservedCredentialId = true

/-- The rows are those of the enrollment. -/
structure Matches (e : DeviceEnrollment) (device : DeviceRecord)
    (credential : DeviceCredentialRecord) : Prop where
  owner : e.approvedUserId = some device.userId
  deviceId : credential.deviceId = e.reservedDeviceId
  secretDigest : credential.secretDigest = e.credentialSecretDigest

inductive Effect (S : Service) (fresh : Prop) (s : State) : State → Prop where
  | forgot {e : DeviceEnrollment} (mem : e ∈ s.store.enrollments.items) :
      Effect S fresh s { s with store := s.store.forget e }
  | recorded {e : DeviceEnrollment} (free : s.store.userCodeIndex e.userCode = none)
      (room : s.store.enrollments.items.length < S.maxActive) (pending : e.state = .pending)
      (drawn : fresh → FreshEnrollment s e) :
      Effect S fresh s { s with store := s.store.record e }
  | changed {e e' : DeviceEnrollment} (mem : e ∈ s.store.enrollments.items)
      (same : SameEnrollment e e') (state : e'.state = e.state ∨ e'.state = .denied)
      (user : e'.approvedUserId = e.approvedUserId) :
      Effect S fresh s { s with store := s.store.change e' }
  | approved {e e' : DeviceEnrollment} {userId : String} (mem : e ∈ s.store.enrollments.items)
      (same : SameEnrollment e e') (state : e'.state = .approved)
      (user : e'.approvedUserId = some userId) (active : s.db.activeUsers userId = true) :
      Effect S fresh s { s with
        store := s.store.change e'
        history := s.history ++ [.approved e userId] }
  | inserted {e : DeviceEnrollment} {userId : String} {device : DeviceRecord} {issuedAt : Int}
      {credentials : Keyed DeviceCredentialRecord.id} (mem : e ∈ s.store.enrollments.items)
      (state : e.state = .approved) (user : e.approvedUserId = some userId)
      (deviceId : device.id = e.reservedDeviceId) (owner : device.userId = userId)
      (name : device.displayName = trim e.displayName)
      (noDevice : s.db.devices.find e.reservedDeviceId = none)
      (insert : s.db.credentials.insert (·.secretDigest == ·.secretDigest)
        (credentialOf e issuedAt) = some credentials) :
      Effect S fresh s { s with
        db := { s.db with devices := s.db.devices.add device, credentials }
        history := s.history ++
          [.answered e.deviceCodeDigest e.reservedDeviceId e.reservedCredentialId false] }
  /-- The rows of the enrollment are there already. -/
  | answered {e : DeviceEnrollment} {device : DeviceRecord} {credential : DeviceCredentialRecord}
      (mem : e ∈ s.store.enrollments.items)
      (state : e.state = .consumed ∨ e.state = .approved ∧ Matches e device credential)
      (foundDevice : s.db.devices.find e.reservedDeviceId = some device)
      (foundCredential : s.db.credentials.find e.reservedCredentialId = some credential) :
      Effect S fresh s { s with
        history := s.history ++
          [.answered e.deviceCodeDigest e.reservedDeviceId e.reservedCredentialId true] }
  | consumed {e e' : DeviceEnrollment} {device : DeviceRecord} {credential : DeviceCredentialRecord}
      (mem : e ∈ s.store.enrollments.items) (same : SameEnrollment e e') (was : e.state = .approved)
      (user : e'.approvedUserId = e.approvedUserId)
      (foundDevice : s.db.devices.find e.reservedDeviceId = some device)
      (foundCredential : s.db.credentials.find e.reservedCredentialId = some credential)
      (rows : Matches e device credential) :
      Effect S fresh s { s with store := s.store.change e' }
  | revokedDevice {deviceId : String} {now : Int} :
      Effect S fresh s { s with db := s.db.revokeDevice deviceId now }
  | revokedCredential {credentialId : String} {now : Int} :
      Effect S fresh s { s with db := s.db.revokeDeviceCredential credentialId now }
  | users {activeUsers : String → Bool} : Effect S fresh s { s with db := { s.db with activeUsers } }
  | restarted : Effect S fresh s { s with store := .empty }

abbrev Effects (S : Service) (fresh : Prop) : State → State → Prop := ReflTransGen (Effect S fresh)

section requests

theorem SameEnrollment.refl (e : DeviceEnrollment) : SameEnrollment e e :=
  ⟨rfl, rfl, rfl, rfl, rfl, rfl, rfl⟩

theorem mem_of_findByUserCode {m : DeviceEnrollmentStore} {code : String} {now : Int}
    {e : DeviceEnrollment} (h : m.findByUserCode S code now = .ok (some e)) :
    e ∈ m.enrollments.items := by
  unfold DeviceEnrollmentStore.findByUserCode at h
  cases hn : normalizeDeviceUserCode S code with
  | error => simp [hn, Except.map] at h
  | ok normalized =>
    rw [hn] at h
    simp only [Except.map, Except.ok.injEq] at h
    obtain ⟨id, -, hfind⟩ := Option.bind_eq_some_iff.1 (Option.filter_eq_some_iff.1 h).1
    exact (Keyed.find_eq_some hfind).1

theorem mem_of_lookup {m : DeviceEnrollmentStore} {digest : String} {e : DeviceEnrollment}
    (h : m.lookupByDeviceCodeDigest digest = some e) : e ∈ m.enrollments.items := by
  obtain ⟨id, -, hfind⟩ := Option.bind_eq_some_iff.1 h
  exact (Keyed.find_eq_some hfind).1

/-- The expired enrollments are forgotten one by one. -/
theorem effects_purge (l : List DeviceEnrollment) (hl : ∀ e ∈ l, e ∈ s.store.enrollments.items)
    (nodup : (l.map (·.enrollmentId)).Nodup) :
    Effects S fresh s { s with store := l.foldl DeviceEnrollmentStore.forget s.store } := by
  induction l generalizing s with
  | nil => exact .refl
  | cons e l ih =>
    obtain ⟨hnot, hnodup⟩ := List.nodup_cons.1 nodup
    refine .head (.forgot (hl e (List.mem_cons_self ..))) (ih (fun a ha => ?_) hnodup)
    refine Keyed.mem_erase.2 ⟨hl a (List.mem_cons_of_mem _ ha), fun heq => hnot ?_⟩
    exact List.mem_map.2 ⟨a, ha, heq⟩

theorem purge_subset (l : List DeviceEnrollment) (m : DeviceEnrollmentStore) :
    (l.foldl DeviceEnrollmentStore.forget m).enrollments.items ⊆ m.enrollments.items := by
  induction l generalizing m with
  | nil => exact fun _ h => h
  | cons e l ih => exact fun a ha => (Keyed.mem_erase.1 (ih _ ha)).1

theorem create_effects {input : DeviceEnrollmentStore.EnrollmentInput}
    {draws : DeviceEnrollmentStore.Draws} {now : Int} {m : DeviceEnrollmentStore}
    {r : Except EnrollmentError DeviceEnrollment} (hfresh : fresh → freshDraws S s draws)
    (h : s.store.createEnrollment S input draws now = some (m, r)) :
    Effects S fresh s { s with store := m } := by
  unfold DeviceEnrollmentStore.createEnrollment at h
  dsimp only at h
  split at h
  · cases h
    exact .refl
  split at h
  · cases h
    exact .refl
  split at h
  · cases h
    exact .refl
  have purged : Effects S fresh s { s with store := s.store.purgeExpired now } :=
    effects_purge _ (fun e he => (List.mem_filter.1 he).1)
      ((List.Sublist.map _ List.filter_sublist).nodup s.store.enrollments.nodup)
  split at h
  · cases h
    exact purged
  next hroom =>
  split at h
  · cases h
  next userCode hcode =>
    cases h
    refine purged.tail (.recorded (by simpa using List.find?_some hcode) (Nat.lt_of_not_le hroom)
      rfl fun hf => ?_)
    obtain ⟨hold, hunanswered, hid⟩ := hfresh hf
    exact ⟨fun a ha => (hold a (purge_subset _ _ ha)).1, fun a ha => (hold a (purge_subset _ _ ha)).2,
      hunanswered, hid⟩

theorem page_effects {session : Option String} {code nonce : String} {clock : Clock} :
    Effects S fresh s (consentPage S s session code nonce clock).1 := by
  unfold consentPage
  split
  · exact .refl
  split
  · exact .refl
  split
  · exact .refl
  · exact .refl
  next e hfind =>
  split
  · exact .refl
  · split <;> exact .refl
  · split <;> exact .refl
  · exact .single (.changed (mem_of_findByUserCode hfind) ⟨rfl, rfl, rfl, rfl, rfl, rfl, rfl⟩
      (.inl rfl) rfl)

theorem decide_effects {session : Option String} {code nonce decision : String} {clock : Clock} :
    Effects S fresh s (decide S s session code nonce decision clock).1 := by
  unfold decide
  split
  · exact .refl
  next userId hsession =>
  split
  · exact .refl
  split
  · exact .refl
  split
  · exact .refl
  · exact .refl
  next e hfind =>
  have hmem := mem_of_findByUserCode hfind
  split
  · split <;> exact .refl
  next hpending =>
  split
  · exact .refl
  split
  · exact .refl
  split
  · split
    · exact .refl
    next hexp =>
      have happ : s.store.approve e userId (clock 1) = s.store.change { e with
          state := .approved, approvedUserId := some userId, approvedAtMs := some (clock 1) } := by
        unfold DeviceEnrollmentStore.approve
        rw [if_neg (not_or.2 ⟨hpending, hexp⟩)]
      dsimp only
      rw [happ]
      exact .single (.approved hmem ⟨rfl, rfl, rfl, rfl, rfl, rfl, rfl⟩ rfl rfl
        (Option.filter_eq_some_iff.1 hsession).2)
  split
  · dsimp only
    unfold DeviceEnrollmentStore.deny
    rw [if_neg hpending]
    exact .single (.changed hmem ⟨rfl, rfl, rfl, rfl, rfl, rfl, rfl⟩ (.inr rfl) rfl)
  · exact .refl

theorem finalize_cases {db db' : ControlDb} {e : DeviceEnrollment} {userId : String} {now : Int}
    {f : Finalized} (h : db.finalizeDeviceEnrollment S e userId now = .ok (db', f)) :
    (db' = db ∧ f.replayed = true ∧ db.devices.find e.reservedDeviceId = some f.device ∧
      db.credentials.find e.reservedCredentialId = some f.credential ∧
      f.device.userId = userId ∧ f.credential.deviceId = e.reservedDeviceId ∧
      f.credential.secretDigest = e.credentialSecretDigest) ∨
    (f.replayed = false ∧ f.device.id = e.reservedDeviceId ∧ f.device.userId = userId ∧
      f.device.displayName = trim e.displayName ∧ f.credential = credentialOf e now ∧
      db.devices.find e.reservedDeviceId = none ∧
      ∃ credentials, db.credentials.insert (·.secretDigest == ·.secretDigest) (credentialOf e now) =
        some credentials ∧
        db' = { db with devices := db.devices.add f.device, credentials }) := by
  unfold ControlDb.finalizeDeviceEnrollment at h
  dsimp only at h
  split at h
  · cases h
  split at h
  · cases h
  split at h
  · cases h
  split at h
  · cases h
  split at h
  · cases h
  split at h
  next device credential hd hc =>
    split at h
    next hreplay =>
      cases h
      unfold isReplay at hreplay
      simp only [Bool.and_eq_true, decide_eq_true_eq] at hreplay
      obtain ⟨⟨⟨⟨howner, -⟩, -⟩, hdev⟩, hsecret⟩ := hreplay
      exact .inl ⟨rfl, rfl, hd, hc, howner, hdev, hsecret⟩
    · cases h
  · cases h
  · cases h
  next hd hc =>
    split at h
    · cases h
    next credentials hins =>
      cases h
      exact .inr ⟨rfl, rfl, rfl, rfl, rfl, hd, credentials, hins, rfl⟩

theorem id_of_find {α κ : Type} [DecidableEq κ] {key : α → κ} {rows : Keyed key} {k : κ} {a : α}
    (h : rows.find k = some a) : key a = k :=
  (Keyed.find_eq_some h).2

theorem find_of_mem {α κ : Type} [DecidableEq κ] {key : α → κ} {rows : Keyed key} {a : α}
    (h : a ∈ rows.items) : rows.find (key a) = some a := by
  cases hfind : rows.find (key a) with
  | none =>
    have := List.find?_eq_none.1 hfind a h
    simp at this
  | some b =>
    obtain ⟨hb, hkb⟩ := Keyed.find_eq_some hfind
    rw [Keyed.eq_of_key hb h hkb]

theorem not_mem_of_find {α κ : Type} [DecidableEq κ] {key : α → κ} {rows : Keyed key} {k : κ}
    (h : rows.find k = none) : k ∉ rows.items.map key := by
  intro hk
  obtain ⟨a, ha, rfl⟩ := List.mem_map.1 hk
  rw [find_of_mem ha] at h
  cases h

theorem answer_effects {e : DeviceEnrollment} {clock : Clock}
    (mem : e ∈ s.store.enrollments.items) : Effects S fresh s (answerPoll S s e clock).1 := by
  unfold answerPoll
  split
  · exact .refl
  · exact .refl
  next hstate =>
    split
    · exact .refl
    next userId huser =>
    split
    · exact .refl
    next db f hf =>
      have hcons : s.store.markConsumed e (clock 3) =
          s.store.change { e with state := .consumed, consumedAtMs := some (clock 3) } := by
        unfold DeviceEnrollmentStore.markConsumed
        rw [if_neg (not_not.2 hstate)]
      have hsame : SameEnrollment e { e with state := .consumed, consumedAtMs := some (clock 3) } :=
        ⟨rfl, rfl, rfl, rfl, rfl, rfl, rfl⟩
      dsimp only
      rw [hcons]
      rcases finalize_cases hf with ⟨rfl, hr, hd, hc, howner, hdev, hsecret⟩ |
        ⟨hr, hdev, howner, hname, hcred, hd, credentials, hins, rfl⟩
      · rw [hr, id_of_find hd, id_of_find hc]
        have hrows : Matches e f.device f.credential := ⟨huser.trans (congrArg some howner.symm), hdev, hsecret⟩
        exact .tail (.single (.answered mem (.inr ⟨hstate, hrows⟩) hd hc))
          (.consumed mem hsame hstate rfl hd hc hrows)
      · have hcid : f.credential.id = e.reservedCredentialId := by rw [hcred]; rfl
        rw [hr, hdev, hcid]
        have hfound : credentials.find e.reservedCredentialId = some (credentialOf e (clock 2)) :=
          find_of_mem (((Keyed.insert_eq_some hins).2.2 _).2 (.inl rfl))
        have hnew : f.device.id ∉ s.db.devices.items.map (·.id) := hdev ▸ not_mem_of_find hd
        have hdevice : (s.db.devices.add f.device).find e.reservedDeviceId = some f.device := by
          rw [← hdev]
          exact find_of_mem ((Keyed.mem_add hnew).2 (.inl rfl))
        have hrows : Matches e f.device (credentialOf e (clock 2)) :=
          ⟨huser.trans (congrArg some howner.symm), rfl, rfl⟩
        exact .tail (.single (.inserted mem hstate huser hdev howner hname hd hins))
          (.consumed mem hsame hstate rfl hdevice hfound hrows)
  next hstate =>
    split
    next device credential hd hc =>
      dsimp only
      rw [id_of_find hd, id_of_find hc]
      exact .single (.answered mem (.inl hstate) hd hc)
    · exact .refl

theorem poll_effects {deviceCode : String} {clock : Clock} :
    Effects S fresh s (poll S s deviceCode clock).1 := by
  unfold poll
  split
  · exact .refl
  split
  · exact .refl
  next e hfind =>
  have hmem := mem_of_lookup hfind
  have hkey : (DeviceEnrollmentStore.polled e (clock 1)).enrollmentId = e.enrollmentId := rfl
  split
  · exact .refl
  have hpolled : Effect S fresh s
      { s with store := s.store.change (DeviceEnrollmentStore.polled e (clock 1)) } :=
    .changed hmem ⟨rfl, rfl, rfl, rfl, rfl, rfl, rfl⟩ (.inl rfl) rfl
  dsimp only
  split
  · exact .single hpolled
  · have hin : DeviceEnrollmentStore.polled e (clock 1) ∈
        (s.store.enrollments.put (DeviceEnrollmentStore.polled e (clock 1))).items :=
      (Keyed.mem_put hmem hkey).2 (.inl rfl)
    exact .head hpolled (answer_effects hin)

theorem begin_effects {input : DeviceEnrollmentStore.EnrollmentInput}
    {draws : DeviceEnrollmentStore.Draws} {clock : Clock} {r : Reply}
    (hfresh : fresh → freshDraws S s draws) (h : begin S s input draws clock = some (t, r)) :
    Effects S fresh s t := by
  unfold begin at h
  cases hcreate : s.store.createEnrollment S input draws (clock 0) with
  | none =>
    rw [hcreate] at h
    cases h
  | some x =>
    obtain ⟨m, res⟩ := x
    have heff := create_effects hfresh hcreate
    have htm : t = { s with store := m } := by
      rw [hcreate, Option.map_some] at h
      rcases res with (_ | _) | e <;> exact (congrArg Prod.fst (Option.some.inj h)).symm
    rw [htm]
    exact heff

theorem handle_effects {a : Request} {clock : Clock} {r : Reply}
    (hfresh : fresh → drawsFresh S s (a, clock)) (h : handle S s clock a = some (t, r)) :
    Effects S fresh s t := by
  cases a with
  | begin input draws =>
    have hf : fresh → freshDraws S s draws := hfresh
    have hb : begin S s input draws clock = some (t, r) := h
    exact begin_effects hf hb
  | consentPage session code nonce =>
    obtain rfl : (consentPage S s session code nonce clock).1 = t := congrArg Prod.fst (Option.some.inj h)
    exact page_effects
  | decide session code nonce decision =>
    obtain rfl : (decide S s session code nonce decision clock).1 = t :=
      congrArg Prod.fst (Option.some.inj h)
    exact decide_effects
  | poll deviceCode =>
    obtain rfl : (poll S s deviceCode clock).1 = t := congrArg Prod.fst (Option.some.inj h)
    exact poll_effects
  | revokeSelf token =>
    simp only [handle] at h
    split at h
    · obtain rfl : s = t := congrArg Prod.fst (Option.some.inj h)
      exact .refl
    next auth _ =>
      obtain rfl : { s with db := s.db.revokeDevice auth.deviceId (clock 1) } = t :=
        congrArg Prod.fst (Option.some.inj h)
      exact .single .revokedDevice
  | revokeByUser userId deviceId =>
    simp only [handle] at h
    split at h
    · obtain rfl : s = t := congrArg Prod.fst (Option.some.inj h)
      exact .refl
    split at h
    · obtain rfl : s = t := congrArg Prod.fst (Option.some.inj h)
      exact .refl
    · obtain rfl : { s with db := s.db.revokeDevice deviceId (clock 0) } = t :=
        congrArg Prod.fst (Option.some.inj h)
      exact .single .revokedDevice
  | revokeCredential credentialId =>
    cases h
    exact .single .revokedCredential
  | setUserActive userId active =>
    cases h
    exact .single .users
  | restart =>
    cases h
    exact .single .restarted

/-- A request is a sequence of effects. -/
theorem step_effects {a : Request × Clock} (h : (server S).Step s a t) : Effects S False s t := by
  obtain ⟨⟨u, r⟩, hu, rfl⟩ := Option.map_eq_some_iff.1 h
  exact handle_effects (fun h => h.elim) hu

theorem guarded_effects {a : Request × Clock} (h : ((server S).guard (drawsFresh S)).Step s a t) :
    Effects S True s t := by
  obtain ⟨hg, hstep⟩ := h
  obtain ⟨⟨u, r⟩, hu, rfl⟩ := Option.map_eq_some_iff.1 hstep
  exact handle_effects (fun _ => hg) hu

end requests

end Ceo.Connector.Enrollment
