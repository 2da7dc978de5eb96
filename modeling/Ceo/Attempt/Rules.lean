import Ceo.Attempt.Pass

/-!
# Rules for the daemon's programs

What a program knows at a point is its trail, the outbox, the used ids and the
log, which only the daemon changes, together with the record it has loaded.
`At c T` is the knowledge without the lock: if there is still an attempt in
the file it is `c`. `Under c T` is the knowledge with the lock: `c` is in the
file. There is one rule for each kind of call and one for each block of the
source that loads, edits and saves the attempt.
-/

namespace Ceo.Attempt

open Ceo.Lib Ceo.Jobs
open Ceo.Connector (Phase)

/-- The parts of the world that only the daemon changes. -/
structure Trail where
  outbox : List OutboxRecord
  used : List String
  log : List Entry

def World.trail (w : World) : Trail := ⟨w.outbox, w.used, w.log⟩

namespace Trail

def push (T : Trail) (e : Call) (r : Answer e) : Trail := { T with log := .call e (some r) :: T.log }

def saved (T : Trail) (a : ActiveAttempt) : Trail :=
  ⟨T.outbox, a.attemptId :: T.used, .call (.saveActive a) (some (.ok ())) :: T.log⟩

/-- The trail after the lock is taken and the attempt is loaded. -/
def entered (T : Trail) (c : ActiveAttempt) : Trail :=
  (T.push .lock true).push .loadActive (.ok (some c))

end Trail

section

variable (dev : Device)

structure At (c : ActiveAttempt) (T : Trail) (w : World) : Prop where
  trail : w.trail = T
  sound : Sound dev c w
  known : c.attemptId ∈ T.used

structure Under (c : ActiveAttempt) (T : Trail) (w : World) : Prop where
  trail : w.trail = T
  locked : w.locked = true
  holds : Holds dev w c
  known : c.attemptId ∈ T.used
  reading : Reading c T.log

/-- The attempt in the file has been saved by this daemon or was there from the start. -/
def Known (w : World) : Prop := ∀ a, w.active = some a → a.attemptId ∈ w.used

variable {dev} in
theorem Known.loaded {w : World} {c : ActiveAttempt} (h : Known w) (hc : Holds dev w c) :
    c.attemptId ∈ w.used := by
  obtain ⟨a, ha, hl⟩ := hc.loaded
  rw [(ActiveAttempt.promote_identity (ActiveAttempt.load_ok_iff.1 hl).1).1]
  exact h a ha

/-- The program is safe for what its calls need. -/
abbrev Ok {α : Type} (P : Policy World Call Reply Project) (inv : World → Prop)
    (Q : α → World → Prop) (p : Prog α) (w : World) : Prop :=
  Safe (surroundings dev) ⟨P, inv, Needs dev⟩ Q p w

end

section

variable {dev : Device} {α : Type} {P : Policy World Call Reply Project} {inv : World → Prop}
  {Q : α → World → Prop} {c : ActiveAttempt} {T : Trail} {w t : World}

/-! ### what other processes do -/

/-- Between two calls the attempt may go away, unless the daemon has the lock. -/
structure Frame (w t : World) : Prop where
  locked : w.locked = true → t = w
  trail : t.trail = w.trail
  active : t.active = w.active ∨ t.active = none

theorem Frame.refl (w : World) : Frame w w := ⟨fun _ => rfl, rfl, .inl rfl⟩

theorem Frame.of_project {x : Project} (h : project dev w x = some t) : Frame w t := by
  obtain ⟨hl, -, ho, hu, hg, ha⟩ := project_frame h
  refine ⟨fun h => (by rw [hl] at h; cases h), ?_, ha⟩
  simp [World.trail, ho, hu, hg]

theorem Frame.trans {u : World} (h : Frame w t) (h' : Frame t u) : Frame w u := by
  refine ⟨fun hl => ?_, h'.trail.trans h.trail, ?_⟩
  · obtain rfl := h.locked hl
    exact h'.locked hl
  · rcases h'.active with ha | ha
    · rw [ha]
      exact h.active
    · exact .inr ha

theorem frame_of_rely (h : (surroundings dev).Rely P w t) : Frame w t := by
  unfold Surroundings.Rely at h
  induction h with
  | refl => exact Frame.refl w
  | tail _ hst ih =>
    obtain ⟨x, -, hx⟩ := hst
    exact ih.trans (.of_project hx)

theorem Sound.frame (hs : Sound dev c w) (hf : Frame w t) : Sound dev c t := by
  rcases hf.active with ha | ha
  · rcases hs with hn | hh
    · exact .inl (ha.trans hn)
    · exact .inr ((holds_of_active ha).2 hh)
  · exact .inl ha

theorem Holds.frame (hf : Frame w t) (h : Holds dev t c) : Holds dev w c := by
  rcases hf.active with ha | ha
  · exact (holds_of_active ha).1 h
  · exact absurd ha h.active

theorem At.frame (h : At dev c T w) (hf : Frame w t) : At dev c T t :=
  ⟨hf.trail.trans h.trail, h.sound.frame hf, h.known⟩

theorem Under.weaken (h : Under dev c T w) : At dev c T w := ⟨h.trail, .inr h.holds, h.known⟩

/-! ### single calls -/

/-- The rule for a call: what holds in every frame of the state carries over. -/
theorem ok_call {e : Call} {k : Answer e → Prog α}
    (h : ∀ w', Frame w w' → inv w' → Needs dev w' e ∧ ∀ x r t, inv t → answer dev w' e x = some r →
      t = (effect dev w' e x).record e r → Ok dev P inv Q (k r) t) :
    Ok dev P inv Q (.call e k) w := by
  intro w' hw' hI
  obtain ⟨hn, hk⟩ := h w' (frame_of_rely hw') hI
  refine ⟨hn, fun x r t _ hs ht => ?_⟩
  obtain ⟨hr, rfl⟩ := serve_inv hs
  exact hk x r _ ht hr rfl

/-- The calls that need nothing themselves and leave the state directory as it is. -/
def Call.isPlain : Call → Bool
  | .lock | .unlock | .saveActive _ | .removeActive | .saveOutbox _ | .removeOutbox _ _
  | .saveHistory _ | .prepare _ _ | .dispatch _ _ | .wait _ _ | .reportJob _ | .loadActive => false
  | _ => true

theorem Call.not_reading_of_plain {e : Call} (h : e.isPlain = true) : e.isReading = false := by
  cases e <;> first | rfl | cases h

theorem Call.quiet_of_plain {e : Call} (h : e.isPlain = true) : e.isQuiet = true := by
  cases e <;> first | rfl | cases h

theorem demand_plain {e : Call} (h : e.isPlain = true) : Demand dev w e := by
  cases e <;> trivial

/-- The last call did not see the agent. -/
def Calm (log : List Entry) : Prop := ¬ Seen log

@[simp] theorem latest_call (e : Call) (r : Option (Answer e)) (log : List Entry) :
    latest (.call e r :: log) =
      if (Entry.call e r).isHousekeeping then latest log else some (.call e r) := by
  unfold latest
  cases h : (Entry.call e r).isHousekeeping <;> simp [h]

theorem calm_of_trail (h : w.trail = T) (hc : Calm T.log) : Calm w.log := by
  rw [← h] at hc
  exact hc

theorem calm_nil : Calm [] := by
  rintro ⟨_, -, _, _, h⟩
  simp [latest] at h

theorem calm_stopped (log : List Entry) : Calm (.stopped :: log) := by
  rintro ⟨_, -, _, _, h⟩
  simp [latest, Entry.isHousekeeping] at h

def Call.isWait : Call → Bool
  | .wait _ _ => true
  | _ => false

/-- After any call but a wait. -/
theorem Calm.push {log : List Entry} (h : Calm log) {e : Call} (he : e.isWait = false)
    (r : Option (Answer e)) : Calm (.call e r :: log) := by
  rintro ⟨o, ho, a, tid, hl⟩
  rw [latest_call] at hl
  split_ifs at hl
  · exact h ⟨o, ho, a, tid, hl⟩
  · cases hl
    cases he

/-- A call that is not housekeeping settles what was seen before it. -/
theorem calm_call {log : List Entry} {e : Call} {r : Option (Answer e)}
    (hk : (Entry.call e r).isHousekeeping = false) (he : e.isWait = false) :
    Calm (.call e r :: log) := by
  rintro ⟨o, ho, a, tid, hl⟩
  rw [latest_call, if_neg (by simp [hk])] at hl
  cases hl
  cases he

theorem Needs.calm {e : Call} (hd : Demand dev w e) (h : Calm w.log) : Needs dev w e :=
  ⟨hd, fun _ hs => absurd hs h⟩

theorem Needs.housekeeping {e : Call} (hd : Demand dev w e) (h : e.isHousekeeping = true) :
    Needs dev w e :=
  ⟨hd, fun hh => by rw [h] at hh; cases hh⟩

theorem Call.not_wait_of_plain {e : Call} (h : e.isPlain = true) : e.isWait = false := by
  cases e <;> first | rfl | cases h

theorem At.log (h : At dev c T w) : w.log = T.log := congrArg Trail.log h.trail

theorem At.used (h : At dev c T w) : w.used = T.used := congrArg Trail.used h.trail

theorem At.outbox (h : At dev c T w) : w.outbox = T.outbox := congrArg Trail.outbox h.trail

theorem At.record (h : At dev c T w) (e : Call) (r : Answer e) :
    At dev c (T.push e r) (w.record e r) := by
  refine ⟨?_, h.sound, h.known⟩
  rw [← h.trail]
  rfl

/-- A call whose needs are met wherever the knowledge is, and that only adds to the log. -/
theorem At.ask {e : Call} {k : Answer e → Prog α} (h : At dev c T w) (hq : e.isQuiet = true)
    (hn : ∀ w', At dev c T w' → Needs dev w' e)
    (hk : ∀ w' x r, At dev c T w' → answer dev w' e x = some r →
      Ok dev P inv Q (k r) (w'.record e r)) : Ok dev P inv Q (.call e k) w := by
  refine ok_call fun w' hf _ => ⟨hn w' (h.frame hf), fun x r t _ hr ht => ?_⟩
  rw [effect_quiet hq] at ht
  subst ht
  exact hk w' x r (h.frame hf) hr

theorem At.plain {e : Call} {k : Answer e → Prog α} (h : At dev c T w) (hc : Calm T.log)
    (he : e.isPlain = true)
    (hk : ∀ r w', At dev c (T.push e r) w' → Calm (T.push e r).log → Ok dev P inv Q (k r) w') :
    Ok dev P inv Q (.call e k) w := by
  refine h.ask (Call.quiet_of_plain he)
    (fun w' h' => .calm (demand_plain he) (h'.log ▸ hc)) fun w' x r h' _ => ?_
  exact hk r _ (h'.record e r) (hc.push (Call.not_wait_of_plain he) _)

theorem At.capture {a : ActiveAttempt}
    {k : Except ManagedResultError CapturedManagedResult → Prog α} (h : At dev c T w)
    (hk : ∀ r w', At dev c (T.push (.captureManagedResult a) r) w' → Ok dev P inv Q (k r) w') :
    Ok dev P inv Q (.call (.captureManagedResult a) k) w := by
  refine h.ask rfl (fun _ _ => .housekeeping trivial rfl) fun w' x r h' _ => ?_
  exact hk r _ (h'.record _ r)

/-- The same with the lock: nothing happens before the call. -/
theorem Under.call {e : Call} {k : Answer e → Prog α} (h : Under dev c T w) (hn : Needs dev w e)
    (hk : ∀ x r, answer dev w e x = some r →
      Ok dev P inv Q (k r) ((effect dev w e x).record e r)) : Ok dev P inv Q (.call e k) w := by
  refine ok_call fun w' hf _ => ?_
  obtain rfl := hf.locked h.locked
  exact ⟨hn, fun x r t _ hr ht => ht ▸ hk x r hr⟩

theorem Under.log (h : Under dev c T w) : w.log = T.log := h.weaken.log

theorem Under.record (h : Under dev c T w) {e : Call} (he : e.isReading = false) (r : Answer e) :
    Under dev c (T.push e r) (w.record e r) :=
  ⟨(h.weaken.record e r).trail, h.locked, h.holds, h.known, h.reading.push he _⟩

theorem Under.plain {e : Call} {k : Answer e → Prog α} (h : Under dev c T w) (hc : Calm T.log)
    (he : e.isPlain = true)
    (hk : ∀ r w', Under dev c (T.push e r) w' → Calm (T.push e r).log → Ok dev P inv Q (k r) w') :
    Ok dev P inv Q (.call e k) w := by
  refine h.call (.calm (demand_plain he) (h.log ▸ hc)) fun x r hr => ?_
  rw [effect_quiet (Call.quiet_of_plain he)]
  exact hk r _ (h.record (Call.not_reading_of_plain he) r) (hc.push (Call.not_wait_of_plain he) _)

/-- The clock, wherever the daemon reads it. -/
theorem Under.now {k : Int → Prog α} (h : Under dev c T w)
    (hk : ∀ now w', Under dev c (T.push .nowUtcMs now) w' → Ok dev P inv Q (k now) w') :
    Ok dev P inv Q (.call .nowUtcMs k) w := by
  refine h.call (.housekeeping trivial rfl) fun x r hr => ?_
  rw [effect_quiet rfl]
  exact hk r _ (h.record rfl r)

theorem At.now {k : Int → Prog α} (h : At dev c T w)
    (hk : ∀ now w', At dev c (T.push .nowUtcMs now) w' → Ok dev P inv Q (k now) w') :
    Ok dev P inv Q (.call .nowUtcMs k) w := by
  refine h.ask rfl (fun _ _ => .housekeeping trivial rfl) fun w' x r h' _ => ?_
  exact hk r _ (h'.record _ r)

/-- Nothing is known of the attempt. -/
theorem ok_plain {e : Call} {k : Answer e → Prog α} (h : w.trail = T) (hc : Calm T.log)
    (he : e.isPlain = true)
    (hk : ∀ r w', w'.trail = T.push e r → Calm (T.push e r).log → Ok dev P inv Q (k r) w') :
    Ok dev P inv Q (.call e k) w := by
  refine ok_call fun w' hf _ => ?_
  have ht' : w'.trail = T := hf.trail.trans h
  have hlog : w'.log = T.log := congrArg Trail.log ht'
  refine ⟨.calm (demand_plain he) (hlog ▸ hc), fun x r t _ _ ht => ?_⟩
  rw [effect_quiet (Call.quiet_of_plain he)] at ht
  subst ht
  refine hk r _ ?_ (hc.push (Call.not_wait_of_plain he) _)
  rw [← ht']
  rfl

/-! ### the files beside the attempt -/

def Call.isFiling : Call → Bool
  | .saveHistory _ | .saveOutbox _ | .removeOutbox _ _ => true
  | _ => false

theorem effect_filing (dev : Device) {e : Call} (he : e.isFiling = true) (w : World) (x : Reply) :
    (effect dev w e x).active = w.active ∧ (effect dev w e x).locked = w.locked ∧
      (effect dev w e x).used = w.used ∧ (effect dev w e x).log = w.log := by
  cases e <;> try cases he
  all_goals
    simp only [effect]
    split_ifs <;> exact ⟨rfl, rfl, rfl, rfl⟩

/-- What is known after such a call; the outbox is what the call has made of it. -/
def Trail.filed (T : Trail) (e : Call) (r : Answer e) (outbox : List OutboxRecord) : Trail :=
  ⟨outbox, T.used, .call e (some r) :: T.log⟩

theorem At.file {e : Call} {k : Answer e → Prog α} (h : At dev c T w) (he : e.isFiling = true)
    (hn : ∀ w', At dev c T w' → Needs dev w' e)
    (hk : ∀ w' x r, At dev c T w' → answer dev w' e x = some r →
      (∀ t, At dev c (T.filed e r (effect dev w' e x).outbox) t → Ok dev P inv Q (k r) t)) :
    Ok dev P inv Q (.call e k) w := by
  refine ok_call fun w' hf _ => ⟨hn w' (h.frame hf), fun x r t _ hr ht => ?_⟩
  have h' := h.frame hf
  obtain ⟨ha, -, hu, hl⟩ := effect_filing dev he w' x
  subst ht
  refine hk w' x r h' hr _ ⟨?_, ?_, h.known⟩
  · simp only [World.trail, World.record, Trail.filed, hu, hl, h'.used, h'.log]
  · rcases h'.sound with hs | hs
    · exact .inl (ha.trans hs)
    · exact .inr ((holds_of_active ha).2 hs)

theorem Under.file {e : Call} {k : Answer e → Prog α} (h : Under dev c T w)
    (he : e.isFiling = true) (hn : Needs dev w e)
    (hk : ∀ r outbox t, Under dev c (T.filed e r outbox) t → Ok dev P inv Q (k r) t) :
    Ok dev P inv Q (.call e k) w := by
  refine h.call hn fun x r hr => ?_
  obtain ⟨ha, hL, hu, hl⟩ := effect_filing dev he w x
  have hrd : e.isReading = false := by cases e <;> first | rfl | cases he
  refine hk r (effect dev w e x).outbox _ ⟨?_, hL.trans h.locked, (holds_of_active ha).2 h.holds,
    h.known, h.reading.push hrd _⟩
  simp only [World.trail, World.record, Trail.filed, hu, hl, h.weaken.used, h.log]

theorem At.removeActive {k : Bool → Prog α} (h : At dev c T w)
    (hn : ∀ w', At dev c T w' → Needs dev w' .removeActive)
    (hk : ∀ r w', At dev c (T.push .removeActive r) w' → Ok dev P inv Q (k r) w') :
    Ok dev P inv Q (.call .removeActive k) w := by
  refine ok_call fun w' hf _ => ⟨hn w' (h.frame hf), fun x r t _ hr ht => ?_⟩
  have h' := h.frame hf
  subst ht
  simp only [effect]
  split_ifs
  · exact hk r _ ⟨(h'.record .removeActive r).trail, .inl rfl, h.known⟩
  · exact hk r _ (h'.record .removeActive r)

theorem At.removeLocked {k : Bool → Prog α} (h : At dev c T w) (hl : w.locked = true)
    (hn : Needs dev w .removeActive)
    (hk : ∀ r w', w'.locked = true → At dev c (T.push .removeActive r) w' →
      Ok dev P inv Q (k r) w') : Ok dev P inv Q (.call .removeActive k) w := by
  refine ok_call fun w' hf _ => ?_
  obtain rfl := hf.locked hl
  refine ⟨hn, fun x r t _ hr ht => ?_⟩
  have h' := h.record .removeActive r
  subst ht
  simp only [effect]
  split_ifs
  · exact hk r _ hl ⟨h'.trail, .inl rfl, h.known⟩
  · exact hk r _ hl h'

/-! ### the lock -/

/-- The lock is taken. -/
def World.grab (w : World) : World :=
  { w with locked := true, log := .call .lock (some true) :: w.log }

theorem At.grab (h : At dev c T w) : At dev c (T.push .lock true) w.grab :=
  ⟨(h.record .lock true).trail, h.sound, h.known⟩

/-- The lock is given back. -/
def World.release (w : World) : World :=
  { w with locked := false, log := .call .unlock (some ()) :: w.log }

/-- What a block leaves behind is seen after the lock is given back. -/
def Locked (Q : α → World → Prop) (a : α) (w : World) : Prop := w.locked = true ∧ Q a w.release

theorem ok_withLock {busy : α} {p : Prog α}
    (hb : ∀ w', Frame w w' → Q busy (w'.record .lock false))
    (hp : ∀ w', Frame w w' → Ok dev P inv (Locked Q) p w'.grab) :
    Ok dev P inv Q (withLock busy p) w := by
  unfold withLock
  rw [call_then]
  refine ok_call fun w' hf _ => ⟨.housekeeping trivial rfl, fun x r t _ hr ht => ?_⟩
  cases x <;> simp only [answer] at hr
  case ok =>
    split_ifs at hr
    cases hr
    subst ht
    refine Safe.bind (hp w' hf) fun a u hu => ?_
    refine ok_call fun u' hf' _ => ⟨.housekeeping trivial rfl, fun x r t _ _ ht => ?_⟩
    obtain rfl := hf'.locked hu.1
    subst ht
    exact hu.2
  case fail =>
    cases hr
    subst ht
    exact hb w' hf
  all_goals cases hr

theorem loadFile_none (h : w.active = none) : loadFile dev w = .ok none := by
  unfold loadFile
  rw [h]

theorem loadFile_ok_none (h : loadFile dev w = .ok none) : w.active = none := by
  unfold loadFile at h
  cases ha : w.active with
  | none => rfl
  | some a =>
    rw [ha] at h
    cases hl : a.load dev.toHost <;> simp [hl] at h

/-- The attempt is loaded: any record the invariant knows about. -/
theorem ok_load {k : Except String (Option ActiveAttempt) → Prog α}
    (known : ∀ w, inv w → Known w) (h : w.trail = T)
    (hn : ∀ r w', (∀ a, r ≠ .ok (some a)) → (w.locked = true → w'.locked = true) →
      w'.trail = T.push .loadActive r → (r = .ok none → w'.active = none) →
      Ok dev P inv Q (k r) w')
    (hc : ∀ c w', At dev c (T.push .loadActive (.ok (some c))) w' →
      (w.locked = true → Under dev c (T.push .loadActive (.ok (some c))) w') →
      Ok dev P inv Q (k (.ok (some c))) w') :
    Ok dev P inv Q (.call .loadActive k) w := by
  refine ok_call fun w' hF hI => ⟨.housekeeping trivial rfl, fun x r t _ hr ht => ?_⟩
  rw [effect_quiet rfl] at ht
  subst ht
  have ht : ∀ r, (w'.record .loadActive r).trail = T.push .loadActive r := fun r => by
    rw [← h, ← hF.trail]
    rfl
  have hlk : w.locked = true → w'.locked = true := fun hl => hF.locked hl ▸ hl
  cases x <;> simp only [answer] at hr
  case ok =>
    cases hr
    cases hf : loadFile dev w' with
    | error e => exact hn _ _ (fun _ h => by cases h) hlk (ht _) (fun h => by cases h)
    | ok o =>
      cases o with
      | none => exact hn _ _ (fun _ h => by cases h) hlk (ht _) fun _ => loadFile_ok_none hf
      | some c =>
        have hu : c.attemptId ∈ T.used := by
          rw [← h, ← hF.trail]
          exact Known.loaded (known w' hI) hf
        exact hc c _ ⟨ht _, .inr hf, hu⟩ fun hl => ⟨ht _, hlk hl, hf, hu, rfl⟩
  case fail =>
    cases hr
    exact hn _ _ (fun _ h => by cases h) hlk (ht _) (fun h => by cases h)
  all_goals cases hr

/-- The attempt is loaded again. -/
theorem At.load {k : Except String (Option ActiveAttempt) → Prog α} (h : At dev c T w)
    (hn : ∀ r w', (∀ a, r ≠ .ok (some a)) → (w.locked = true → w'.locked = true) →
      At dev c (T.push .loadActive r) w' → (r = .ok none → w'.active = none) →
      Ok dev P inv Q (k r) w')
    (hc : ∀ w', At dev c (T.push .loadActive (.ok (some c))) w' →
      (w.locked = true → Under dev c (T.push .loadActive (.ok (some c))) w') →
      Ok dev P inv Q (k (.ok (some c))) w') :
    Ok dev P inv Q (.call .loadActive k) w := by
  refine ok_call fun v hv _ => ⟨.housekeeping trivial rfl, fun x r t _ hr ht => ?_⟩
  have h' := h.frame hv
  have hlk : w.locked = true → v.locked = true := fun hl => hv.locked hl ▸ hl
  rw [effect_quiet rfl] at ht
  subst ht
  cases x <;> simp only [answer] at hr
  case ok =>
    cases hr
    rcases h'.sound with hn' | hc'
    · rw [loadFile_none hn']
      exact hn _ _ (fun _ h => by cases h) hlk (h'.record _ _) fun _ => hn'
    · rw [show loadFile dev v = .ok (some c) from hc']
      exact hc _ (h'.record _ _) fun hl => ⟨(h'.record _ _).trail, hlk hl, hc', h.known, rfl⟩
  case fail =>
    cases hr
    exact hn _ _ (fun _ h => by cases h) hlk (h'.record _ _) (fun h => by cases h)
  all_goals cases hr

/-! ### blocks that edit the attempt -/

/-- The identity of the attempt stays. -/
theorem Edit.identity {a : ActiveAttempt} (h : Edit dev w c a) :
    a.attemptId = c.attemptId ∧ a.jobId = c.jobId := by
  cases h <;> try exact ⟨rfl, rfl⟩
  case unprepared hp i => cases i <;> exact ⟨rfl, rfl⟩
  case ready hp prep b target hl ha =>
    unfold ActiveAttempt.ready
    cases prep.dispatch <;> exact ⟨rfl, rfl⟩

theorem Edit.not_legacy {a : ActiveAttempt} (h : Edit dev w c a) (hc : c.phase ≠ .legacyRunning) :
    a.phase ≠ .legacyRunning := by
  cases h
  case advance hA => cases hA <;> (intro h; cases h)
  case ready hp prep b target hl ha =>
    unfold ActiveAttempt.ready
    cases prep.dispatch <;> (intro h; cases h)
  all_goals first | exact hc | (intro h; cases h)

theorem At.withCurrent {β : Type} {Q : β → World → Prop} {leave : Turn → β}
    {active : ActiveAttempt} {f : ActiveAttempt → Prog β} (h : At dev c T w)
    (hid : c.attemptId = active.attemptId) (hfail : ∀ err w', Q (leave (.failed err)) w')
    (hgone : ∀ w', w'.active = none → Q (leave (.ok true)) w')
    (hf : ∀ w', Under dev c (T.entered c) w' → Ok dev P inv (Locked Q) (f c) w') :
    Ok dev P inv Q (withCurrent leave active f) w := by
  refine ok_withLock (fun _ _ => hfail _ _) fun w' hF => ?_
  rw [call_then]
  refine (h.frame hF).grab.load (fun r u hr hl _ hn => ?_) fun u _ hu => ?_
  · rcases r with e | _ | a
    · exact ⟨hl rfl, hfail _ _⟩
    · exact ⟨hl rfl, hgone _ (hn rfl)⟩
    · exact absurd rfl (hr a)
  · simp only [if_pos hid]
    exact hf u (hu rfl)

theorem Under.save {failed : DaemonError → α} {a : ActiveAttempt} {done : α}
    (h : Under dev c T w) (he : Edit dev w c a) (hp : Seen T.log → Passed a)
    (hfail : ∀ e w', w'.locked = true → Q (failed e) w')
    (hd : ∀ w', w'.locked = true → At dev a (T.saved a) w' → Q done w') :
    Ok dev P inv Q (Attempt.save failed a done) w := by
  unfold Attempt.save
  rw [call_then]
  have hn : Needs dev w (.saveActive a) := by
    refine ⟨⟨h.locked, .inl ⟨c, h.holds, h.log ▸ h.reading, he⟩⟩, fun _ hs b hb => ?_⟩
    obtain rfl : b = a := hb
    exact hp (h.log ▸ hs)
  refine h.call hn fun x r hr => ?_
  cases hv : a.validate dev.toHost with
  | error e =>
    cases x <;> simp only [answer, hv] at hr
    case ok | fail =>
      cases hr
      simp only [effect, hv, Except.isOk, Except.toBool, Bool.false_and, Bool.false_eq_true,
        if_false]
      exact hfail _ _ h.locked
    all_goals cases hr
  | ok =>
    cases x <;> simp only [answer, hv] at hr
    case ok =>
      cases hr
      simp only [effect, hv, Except.isOk, Except.toBool, Bool.true_and, Reply.writes, if_true]
      refine hd _ h.locked ⟨?_, .inr ?_, .head _⟩
      · rw [← h.trail]
        rfl
      · exact holds_of_saved rfl (ActiveAttempt.validate_ok_iff.1 hv)
          (he.not_legacy h.holds.valid.2)
    case fail written =>
      cases hr
      refine hfail _ _ ?_
      simp only [effect]
      split_ifs <;> exact h.locked
    all_goals cases hr

/-- What is seen is on record. -/
def Settled (dev : Device) (w : World) : Prop := ∀ c, Holds dev w c → Seen w.log → Passed c

/-- What a pass leaves behind. -/
def TurnOk (dev : Device) : Turn → World → Prop
  | .ok _, w => Settled dev w
  | .failed _, _ => True
  | .waiting l, w => Looping dev l w

theorem Settled.calm (h : Calm w.log) : Settled dev w := fun _ _ hs => absurd hs h

theorem Settled.gone (h : w.active = none) : Settled dev w := fun _ hc => absurd h hc.active

/-- The results of a block but the next round of the loop. -/
def Turn.ends : Turn → Bool
  | .waiting _ => false
  | _ => true

theorem TurnOk.ends {turn : Turn} (ht : turn.ends = true) (h : Calm w.log) : TurnOk dev turn w := by
  cases turn
  case ok => exact .calm h
  case failed => trivial
  case waiting => cases ht

theorem At.edit {active : ActiveAttempt} {f : ActiveAttempt → Prog Turn} (h : At dev c T w)
    (hid : c.attemptId = active.attemptId)
    (hf : ∀ w', Under dev c (T.entered c) w' → Ok dev P inv (Locked (TurnOk dev)) (f c) w') :
    Ok dev P inv (TurnOk dev) (Attempt.withCurrent id active f) w :=
  h.withCurrent hid (fun _ _ => trivial) (fun _ hn => .gone hn) hf

/-- The last save of a block. -/
theorem Under.saveEnd {a : ActiveAttempt} {turn : Turn} (h : Under dev c T w)
    (he : Edit dev w c a) (hc : Calm T.log ∨ Passed a) (ht : turn.ends = true) :
    Ok dev P inv (Locked (TurnOk dev)) (Attempt.save .failed a turn) w := by
  refine h.save he (fun hs => hc.resolve_left fun hh => hh hs) (fun _ _ hl => ⟨hl, trivial⟩) ?_
  intro w' hl h'
  refine ⟨hl, .ends ht ?_⟩
  have : Calm w'.log := h'.log ▸ calm_call rfl rfl
  exact this.push rfl _

theorem Calm.entered (hc : Calm T.log) (c : ActiveAttempt) : Calm (T.entered c).log :=
  (hc.push (e := .lock) rfl _).push rfl _

theorem At.update {active : ActiveAttempt} {f : ActiveAttempt → ActiveAttempt} {turn : Turn}
    (h : At dev c T w) (hid : c.attemptId = active.attemptId) (hc : Calm T.log)
    (ht : turn.ends = true)
    (he : ∀ w', Under dev c (T.entered c) w' → Edit dev w' c (f c)) :
    Ok dev P inv (TurnOk dev) (Attempt.update active f turn) w :=
  h.edit hid fun w' h' => h'.saveEnd (he w' h') (.inl (hc.entered c)) ht

theorem At.recover (h : At dev c T w) (hc : Calm T.log) (hr : Recoverable c) (message : String) :
    Ok dev P inv (TurnOk dev) (Attempt.recover c message) w :=
  h.update rfl hc rfl fun _ _ => .recover hr

theorem At.advanceTo {ph : Phase} (h : At dev c T w) (hc : Calm T.log) (ha : Advances c ph) :
    Ok dev P inv (TurnOk dev) (Attempt.advanceTo ph c) w :=
  h.update rfl hc rfl fun _ _ => .advance ha

end

end Ceo.Attempt
