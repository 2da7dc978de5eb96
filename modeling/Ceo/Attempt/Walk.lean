import Ceo.Attempt.Rules

/-!
# The walk through the daemon

One lemma for each program of the daemon: its calls have what they need. At
the end of a pass nothing that was seen is left unrecorded, and between two
rounds of the waiting loop the invariant of the loop holds. `daemon_inv` turns
the lists of what a pass can do into an invariant rule for whole runs.
-/

namespace Ceo.Attempt

open Ceo.Lib Ceo.Jobs
open Ceo.Connector (Phase)

section

variable {dev : Device} {P : Policy World Call Reply Project} {inv : World → Prop}
  (known : ∀ w, inv w → Known w) {c : ActiveAttempt} {T : Trail} {w : World}

/-- After a result that is not the next round of a loop. -/
abbrev Quiet {α : Type} : α → World → Prop := fun _ w => Calm w.log

theorem calm_release (h : Calm w.log) : Calm w.release.log := h.push (e := .unlock) rfl _

theorem Locked.quiet {α : Type} {a : α} (hl : w.locked = true) (h : w.trail = T)
    (hc : Calm T.log) : Locked Quiet a w :=
  ⟨hl, (calm_of_trail h hc).push rfl _⟩

/-! ### delivery -/

include known in
/-- After the report was accepted. -/
theorem ok_acknowledged {o : OutboxRecord} (h : w.trail = T.push (.reportJob o) (.ok ())) :
    Ok dev P inv Quiet (withLock (.error .io) (acknowledged dev o)) w := by
  have hc : Calm (T.push (.reportJob o) (.ok ())).log := calm_call rfl rfl
  have hc' := hc.push (e := .lock) rfl (some true)
  refine ok_withLock (fun w' hf => ?_) fun w' hf => ?_
  · exact (calm_of_trail (hf.trail.trans h) hc).push rfl _
  unfold acknowledged
  rw [call_then]
  have hg : w'.grab.trail = (T.push (.reportJob o) (.ok ())).push .lock true := by
    rw [← h, ← hf.trail]
    rfl
  refine ok_load known hg (fun r u hr hlk hu _ => ?_) fun a u _ hu => ?_
  · have hq : ∀ r : Except OutboxError Unit, Locked Quiet r u := fun _ =>
      .quiet (hlk rfl) hu (hc'.push rfl _)
    rcases r with e | _ | a
    · exact hq _
    · exact hq _
    · exact absurd rfl (hr a)
  · have hu := hu rfl
    have hq : ∀ r : Except OutboxError Unit, Locked Quiet r u := fun r =>
      .quiet hu.locked hu.trail (hc'.push rfl _)
    simp only
    split_ifs with h1 h2 h3
    · exact hq _
    · exact hq _
    · exact hq _
    · obtain ⟨hj, hid⟩ := not_or.1 h1
      rw [nowUtcMs_then]
      refine hu.now fun now u hu => ?_
      have hcl : ∀ u T', Under dev a T' u → Closes dev u o
          (((T.push (.reportJob o) (.ok ())).entered a).push .nowUtcMs now).log
          (deliveredHistory dev o a.targetId now) := fun u _ hu =>
        .accepted a now T.log hu.locked hu.holds ⟨not_not.1 hj, not_not.1 hid⟩
          (not_not.1 h2) (not_not.1 h3)
      have hcn := (hc'.push (e := .loadActive) rfl (some (.ok (some a)))).push
        (e := .nowUtcMs) rfl (some now)
      rw [call_then]
      refine hu.file rfl (.calm (.inl ⟨o, ?_⟩) (hu.log ▸ hcn)) fun r outbox u hu => ?_
      · rw [hu.log]
        exact hcl _ _ hu
      have hcs : Calm _ := hcn.push (e := .saveHistory _) rfl (some r)
      cases r
      case false => exact .quiet hu.locked hu.trail hcs
      simp only [call_then]
      refine hu.file rfl (.calm ⟨o, _, _, rfl, rfl, hu.log, hcl _ _ hu⟩ (hu.log ▸ hcs))
        fun r outbox u hu => ?_
      have hcr : Calm _ := hcs.push (e := .removeOutbox _ _) rfl (some r)
      cases r
      case false => exact .quiet hu.locked hu.trail hcr
      simp only
      refine hu.weaken.removeLocked hu.locked (.calm ?_ (hu.log ▸ hcr)) fun r u hl hu => ?_
      · show Removes dev u u.log
        rw [hu.log]
        exact .delivered o _ _ (hcl _ _ hu)
      · have := hcr.push (e := .removeActive) rfl (some r)
        cases r
        case false => exact .quiet hl hu.trail this
        case true => exact .quiet hl hu.trail this

include known in
/-- After the coordinator has refused the report. -/
theorem ok_refused {o : OutboxRecord} {code message : String}
    (h : w.trail = T.push (.reportJob o) (.error (.jobError code message))) :
    Ok dev P inv Quiet (refused dev o code message) w := by
  have hc : Calm (T.push (.reportJob o) (.error (.jobError code message))).log :=
    calm_call rfl rfl
  unfold refused
  split_ifs with hcode
  case neg => exact calm_of_trail h hc
  rw [call_then]
  refine ok_load known h (fun r u hr _ hu _ => ?_) fun a u hu _ => ?_
  · have hq : Calm u.log := calm_of_trail hu (hc.push rfl _)
    rcases r with e | _ | a
    · exact hq
    · exact hq
    · exact absurd rfl (hr a)
  · simp only
    have hcl := hc.push (e := .loadActive) rfl (some (.ok (some a)))
    split_ifs with hid
    case neg => exact calm_of_trail hu.trail hcl
    rw [call_then]
    refine hu.plain hcl rfl fun r u hu hcg => ?_
    cases r with
    | error e => exact calm_of_trail hu.trail hcg
    | ok detail =>
      simp only
      split_ifs with hd
      case neg => exact calm_of_trail hu.trail hcg
      rw [nowUtcMs_then]
      refine hu.now fun now u hu => ?_
      have hcn := hcg.push (e := .nowUtcMs) rfl (some now)
      have hcl : ∀ u T', At dev a T' u → Closes dev u o _
          (cancelledHistory dev o.jobId o.attemptId a.targetId now) := fun u _ hu =>
        .refused a detail code message now T.log hu.sound hid hd
      rw [call_then]
      refine hu.file rfl (fun u hu => .calm (.inl ⟨o, ?_⟩) (hu.log ▸ hcn))
        fun _ _ r _ _ u hu => ?_
      · rw [hu.log]
        exact hcl _ _ hu
      have hcs := hcn.push (e := .saveHistory _) rfl (some r)
      cases r
      case false => exact calm_of_trail hu.trail hcs
      rw [call_then]
      refine hu.file rfl (fun u hu => .calm ⟨o, _, _, rfl, rfl, hu.log, hcl _ _ hu⟩ (hu.log ▸ hcs))
        fun _ _ r _ _ u hu => ?_
      have hcr := hcs.push (e := .removeOutbox _ _) rfl (some r)
      cases r
      case false => exact calm_of_trail hu.trail hcr
      rw [call_then]
      refine hu.removeActive (fun u hu => .calm ?_ (hu.log ▸ hcr)) fun r u hu => ?_
      · show Removes dev u u.log
        rw [hu.log]
        exact .delivered o _ _ (hcl _ _ hu)
      · have := calm_of_trail hu.trail (hcr.push (e := .removeActive) rfl (some r))
        cases r
        case false => exact this
        case true => exact this

/-- The record is in the outbox. -/
def Pending (o : OutboxRecord) (T : Trail) : Prop :=
  T.outbox.find? (World.key o.jobId o.attemptId) = some o

include known in
theorem ok_deliverReport {o : OutboxRecord} (h : w.trail = T) (hc : Calm T.log) (ho : Pending o T)
    (hm : o.managedResult.isSome = true → o.managedResultSha256.isSome = true →
      ∃ rest, T.log = .call (.submitJobResult o) (some (.ok ())) :: rest) :
    Ok dev P inv Quiet (deliverReport dev o) w := by
  unfold deliverReport
  rw [call_then]
  refine ok_call fun w' hf _ => ?_
  have ht : w'.trail = T := hf.trail.trans h
  have hlog : w'.log = T.log := congrArg Trail.log ht
  have hn : Needs dev w' (.reportJob o) := by
    refine .calm ⟨?_, by rw [hlog]; exact hm⟩ (hlog ▸ hc)
    rw [← ht] at ho
    exact ho
  refine ⟨hn, fun x r t _ _ hrt => ?_⟩
  have htr : t.trail = T.push (.reportJob o) r := by
    rw [hrt, ← ht]
    rfl
  have hct : Calm t.log := calm_of_trail htr (calm_call rfl rfl)
  rcases r with e | _
  · cases e with
    | jobError code message => exact ok_refused known htr
    | unauthorized | serverUnavailable _ | http _ | other _ => exact hct
  · exact ok_acknowledged known htr

include known in
theorem ok_deliver {o : OutboxRecord} (h : w.trail = T) (hc : Calm T.log) (ho : Pending o T) :
    Ok dev P inv Quiet (deliverOutboxRecord dev o) w := by
  unfold deliverOutboxRecord
  split_ifs with hid hm
  · exact calm_of_trail h hc
  · rw [call_then]
    refine ok_plain h hc rfl fun r u hu hcu => ?_
    rcases r with e | _
    · cases e <;> exact calm_of_trail hu hcu
    · exact ok_deliverReport known hu hcu ho fun _ _ => ⟨_, rfl⟩
  · refine ok_deliverReport known h hc ho fun h1 h2 => ?_
    simp [h1, h2] at hm

include known in
theorem ok_flushRecords (files : List (String × String)) (hc : Calm w.log) :
    Ok dev P inv Quiet (flushRecords dev files) w := by
  induction files generalizing w with
  | nil => exact hc
  | cons file files ih =>
    obtain ⟨j, a⟩ := file
    unfold flushRecords
    rw [call_then]
    refine ok_call fun w' hf _ => ⟨.calm trivial ?_, fun x r t _ hr ht => ?_⟩
    · exact calm_of_trail hf.trail hc
    rw [effect_quiet rfl] at ht
    subst ht
    have hcl : Calm (w'.record (.loadOutbox j a) r).log :=
      (calm_of_trail hf.trail hc).push rfl _
    rcases r with e | o
    · exact hcl
    · have ho : Pending o (w'.record (.loadOutbox j a) (.ok o)).trail := outboxFile_loaded hr
      refine Safe.bind (ok_deliver known rfl hcl ho) fun r u hu => ?_
      rcases r with e | _
      · exact hu
      · exact ih hu

include known in
theorem ok_flushOutbox (hc : Calm w.log) : Ok dev P inv Quiet (flushOutbox dev) w := by
  unfold flushOutbox
  rw [call_then]
  refine ok_plain rfl hc rfl fun r u hu hcu => ?_
  rcases r with e | files
  · exact calm_of_trail hu hcu
  · exact ok_flushRecords known files (calm_of_trail hu hcu)

/-! ### convergence -/

/-- The attempt in the file is still `c`, or is gone. -/
def Still (dev : Device) (c : ActiveAttempt) {α : Type} (_ : α) (w : World) : Prop :=
  At dev c w.trail w ∧ Calm w.log

theorem At.still {α : Type} (h : At dev c T w) (hc : Calm T.log) (a : α) : Still dev c a w :=
  ⟨h.trail ▸ h, calm_of_trail h.trail hc⟩

theorem Locked.still {α : Type} {a : α} (hl : w.locked = true) (h : At dev c T w)
    (hc : Calm T.log) : Locked (Still dev c) a w :=
  ⟨hl, ⟨rfl, h.sound, (h.used ▸ h.known : c.attemptId ∈ w.used)⟩,
    (calm_of_trail h.trail hc).push rfl _⟩

theorem ok_finalize {active : ActiveAttempt} (h : At dev c T w) (hc : Calm T.log)
    (hp : c.phase ∈ convergingPhases) :
    Ok dev P inv (Still dev c) (finalizeLocalOperatorCancelled dev active) w := by
  unfold finalizeLocalOperatorCancelled
  have hck := hc.push (e := .lock) rfl (some true)
  refine ok_withLock (fun w' hf => ?_) fun w' hf => ?_
  · exact ((h.frame hf).record .lock false).still (hc.push rfl _) _
  rw [call_then]
  refine (h.frame hf).grab.load (fun r u hr hl hu _ => ?_) fun u _ hu => ?_
  · have hq : ∀ r : Except DaemonError Unit, Locked (Still dev c) r u := fun _ =>
      .still (hl rfl) hu (hck.push rfl _)
    rcases r with e | _ | a
    · exact hq _
    · exact hq _
    · exact absurd rfl (hr a)
  · have hu := hu rfl
    have hcl := hck.push (e := .loadActive) rfl (some (.ok (some c)))
    simp only
    split_ifs with hid
    case neg => exact .still hu.locked hu.weaken hcl
    rw [nowUtcMs_then]
    refine hu.now fun now u hu => ?_
    have hcn := hcl.push (e := .nowUtcMs) rfl (some now)
    have hcv : ∀ u T', Under dev c T' u → Converges dev u _
        (cancelledHistory dev c.jobId c.attemptId c.targetId now) := fun u _ hu =>
      .cancelled c now T.log hu.locked hu.holds hp
    rw [call_then]
    refine hu.file rfl (.calm (.inr ?_) (hu.log ▸ hcn)) fun r outbox u hu => ?_
    · rw [hu.log]
      exact hcv _ _ hu
    have hcs := hcn.push (e := .saveHistory _) rfl (some r)
    cases r
    case false => exact .still hu.locked hu.weaken hcs
    simp only [call_then]
    refine hu.weaken.removeLocked hu.locked (.calm ?_ (hu.log ▸ hcs)) fun r u hl hu => ?_
    · show Removes dev u u.log
      rw [hu.log]
      exact .converged _ _ (hcv _ _ hu)
    · have := hcs.push (e := .removeActive) rfl (some r)
      cases r
      case false => exact .still hl hu this
      case true => exact .still hl hu this

theorem ok_reconcile (h : At dev c T w) (hc : Calm T.log) (hp : c.phase ∈ convergingPhases) :
    Ok dev P inv (Still dev c) (reconcileWithOperatorCancel dev) w := by
  unfold reconcileWithOperatorCancel
  rw [call_then]
  refine h.load (fun r u hr _ hu _ => ?_) fun u hu _ => ?_
  · have hcl := hc.push (e := .loadActive) rfl (some r)
    rcases r with e | _ | a
    · exact hu.still hcl _
    · exact hu.still hcl _
    · exact absurd rfl (hr a)
  · have hcl := hc.push (e := .loadActive) rfl (some (.ok (some c)))
    simp only
    split_ifs with hid
    · exact hu.still hcl _
    · rw [call_then]
      refine hu.plain hcl rfl fun r u hu hcg => ?_
      cases r with
      | error e => exact hu.still hcg _
      | ok detail =>
        simp only
        split_ifs with hd
        · refine Safe.bind (ok_finalize hu hcg hp) fun r v hv => ?_
          cases r <;> exact hv
        · exact hu.still hcg _

/-! ### claim and start -/

/-- The trail of a pass that has loaded `c`. -/
abbrev Trail.loaded (T : Trail) (c : ActiveAttempt) : Trail := T.push .loadActive (.ok (some c))

theorem Calm.loaded (hc : Calm T.log) (c : ActiveAttempt) : Calm (T.loaded c).log :=
  hc.push (e := .loadActive) rfl _

theorem At.ok {turn : Turn} (h : At dev c T w) (hc : Calm T.log) (ht : turn.ends = true) :
    Ok dev P inv (TurnOk dev) (.done turn) w :=
  TurnOk.ends ht (calm_of_trail h.trail hc)

/-- A pass after `finalize_local_operator_cancelled`. -/
theorem ok_finalized {active : ActiveAttempt} (h : At dev c T w) (hc : Calm T.log)
    (hp : c.phase ∈ convergingPhases) :
    Ok dev P inv (TurnOk dev) (do
      match ← finalizeLocalOperatorCancelled dev active with
      | .error e => return .failed e
      | .ok () => return .ok true) w := by
  refine Safe.bind (ok_finalize h hc hp) fun r v hv => ?_
  cases r with
  | error e => trivial
  | ok => exact .calm hv.2

theorem ok_driveClaimIntent (h : At dev c (T.loaded c) w) (hc : Calm T.log)
    (hp : c.phase = .claimIntent) : Ok dev P inv (TurnOk dev) (driveClaimIntent dev c) w := by
  have hr : Recoverable c := ⟨by rw [hp]; rfl, fun h => by rw [hp] at h; cases h⟩
  unfold driveClaimIntent
  rw [call_then]
  refine h.plain (hc.loaded c) rfl fun r u hu hcu => ?_
  cases r with
  | ok resp =>
    simp only
    cases hv : validateClaimResponse dev c resp with
    | error e => exact hu.recover hcu hr _
    | ok =>
      simp only
      cases ht : dev.parseTimestampStrict resp.claimedAt with
      | error e => trivial
      | ok claimedAtMs =>
        simp only
        refine hu.edit rfl fun v hv' => ?_
        have hcv := hcu.entered c
        simp only [call_then]
        refine hv'.plain hcv rfl fun r v hv' hcv => ?_
        cases r
        case false => exact ⟨hv'.locked, trivial⟩
        refine hv'.saveEnd ?_ (.inl hcv) rfl
        exact .claim hp resp.job claimedAtMs (validateClaimResponse_ok dev hv)
  | error e =>
    cases e with
    | jobError code message =>
      simp only
      split_ifs with h1 h2
      · refine ok_withLock (fun w' hf => trivial) fun w' hf => ?_
        rw [call_then]
        have hg := (hu.frame hf).grab
        have hcg : Calm _ := hcu.push (e := .lock) rfl (some true)
        refine hg.removeLocked rfl (.calm ?_ (hg.log ▸ hcg)) fun r v hl hv => ?_
        · show Removes dev _ (World.grab _).log
          rw [hg.log]
          exact .rejected c code message T.log rfl hg.sound hp
        · have := hcg.push (e := .removeActive) rfl (some r)
          cases r
          case false => exact ⟨hl, trivial⟩
          case true => exact ⟨hl, .calm (calm_release (calm_of_trail hv.trail this))⟩
      · exact hu.recover hcu hr _
      · exact hu.ok hcu rfl
    | unauthorized | serverUnavailable _ | http _ | other _ => exact hu.ok hcu rfl

theorem Recoverable.of_phase (h : mayRecover c.phase = true) (hp : c.phase ≠ .outcomeRecorded) :
    Recoverable c :=
  ⟨h, fun ho => absurd ho hp⟩

theorem ok_driveStartIntent (h : At dev c T w) (hc : Calm T.log) (hp : c.phase = .startIntent) :
    Ok dev P inv (TurnOk dev) (driveStartIntent dev c) w := by
  have hr : Recoverable c := .of_phase (by rw [hp]; rfl) (by simp [hp])
  unfold driveStartIntent
  rw [call_then]
  refine h.plain hc rfl fun r u hu hcu => ?_
  cases r with
  | ok ack =>
    simp only
    split_ifs with ha
    · exact hu.advanceTo hcu (.started hp)
    · exact hu.recover hcu hr _
  | error e =>
    cases e with
    | jobError code message =>
      simp only
      split_ifs with h1 h2
      · rw [call_then]
        refine hu.plain hcu rfl fun r u hu hcu => ?_
        cases r with
        | error e => exact hu.recover hcu hr _
        | ok detail =>
          simp only
          split_ifs with hd
          · exact ok_finalized hu hcu (by simp [convergingPhases, hp])
          · exact hu.recover hcu hr _
      · exact hu.recover hcu hr _
      · exact hu.ok hcu rfl
    | unauthorized => trivial
    | serverUnavailable _ | http _ | other _ => exact hu.ok hcu rfl

/-! ### prepare -/

theorem ok_prepareAgent {active b : ActiveAttempt} {target : LocalTarget} (h : At dev c T w)
    (hc : Calm T.log) (hp : c.phase = .prepareIntent) (hid : c.attemptId = active.attemptId)
    (hb : Reading b T.log) (hbp : b.phase = .prepareIntent) :
    Ok dev P inv (TurnOk dev) (prepareAgent active target) w := by
  have hr : Recoverable c := .of_phase (by rw [hp]; rfl) (by simp [hp])
  unfold prepareAgent
  rw [call_then]
  have hn : ∀ w', At dev c T w' → Needs dev w' (.prepare active target) := fun w' h' =>
    .calm ⟨⟨c, h'.sound, hid, hp, hid ▸ h'.used ▸ h'.known⟩, b, h'.log ▸ hb, hbp⟩ (h'.log ▸ hc)
  refine h.ask rfl hn fun w' x r h' _ => ?_
  have hu := h'.record (.prepare active target) r
  have hcu : Calm _ := hc.push (e := .prepare active target) rfl (some r)
  cases r with
  | error e =>
    simp only
    split_ifs with he
    · exact hu.update hid hcu rfl fun _ _ => .recover hr
    · exact hu.ok hcu rfl
  | ok outcome =>
    cases outcome with
    | ready prep =>
      simp only [call_then]
      refine hu.plain hcu rfl fun r u hu hcu => ?_
      cases r
      case false => trivial
      refine hu.update hid hcu rfl fun v hv => .ready hp prep active target ?_ hid.symm
      rw [hv.log]
      rfl
    | notReady execution reason =>
      refine hu.edit hid fun v hv => ?_
      rw [nowUtcMs_then]
      refine hv.now fun now v hv => ?_
      refine hv.saveEnd (.notReady hp execution reason now active target ?_ hid.symm)
        (.inr (.inr ?_)) rfl
      · rw [hv.log]
        rfl
      · exact .head _
    | retryable execution reason =>
      cases execution with
      | none => exact hu.ok hcu rfl
      | some ident => exact hu.update hid hcu rfl fun _ _ => .identify hp ident
    | recoveryRequired execution reason =>
      exact hu.update hid hcu rfl fun _ _ => .unprepared hp execution

/-- What `startClock` leaves behind: the clock of the attempt runs. -/
def Started (dev : Device) (c : ActiveAttempt) (r : Except Turn Unit) (w : World) : Prop :=
  match r with
  | .error turn => TurnOk dev turn w
  | .ok () => (∃ now timeoutSeconds,
      Still dev (c.insertExecutor (·.startClock now timeoutSeconds)) () w) ∧ Reading c w.log

theorem ok_startClock {now : Int} (h : At dev c T w) (hc : Calm T.log)
    (hp : c.phase = .prepareIntent) :
    Ok dev P inv (Started dev c) (startClock c now) w := by
  unfold startClock
  refine h.withCurrent rfl (fun _ _ => trivial) (fun w' hn => .gone hn) fun u hu => ?_
  have hce : Calm (T.entered c).log := hc.entered c
  have hfail : ∀ e w', w'.locked = true →
      Locked (Started dev c) ((Except.error ∘ Turn.failed) e) w' := fun _ _ hl => ⟨hl, trivial⟩
  have hclock : Ok dev P inv (Locked (Started dev c))
      (save (.error ∘ .failed)
        (c.insertExecutor (·.startClock now c.executionTimeoutSeconds)) (.ok ())) u := by
    refine hu.save (.clock hp now c.executionTimeoutSeconds) (fun hs => absurd hs hce) hfail
      fun v hl hv => ⟨hl, ⟨now, c.executionTimeoutSeconds, ?_⟩, ?_⟩
    · have := Locked.still (a := ()) hl hv (calm_call rfl rfl)
      exact this.2
    · have : Reading c v.log := by
        rw [hv.log]
        exact hu.reading.push rfl _
      exact this.push rfl _
  simp only
  split
  · exact hclock
  · split_ifs with hd
    · refine hu.save (.late hp now c.executionTimeoutSeconds) (fun hs => absurd hs hce) hfail
        fun v hl _ => ⟨hl, trivial⟩
    · exact hclock

theorem ok_drivePrepareIntent (h : At dev c T w) (hc : Calm T.log) (hp : c.phase = .prepareIntent)
    (hrd : Reading c T.log) : Ok dev P inv (TurnOk dev) (drivePrepareIntent c) w := by
  have hr : Recoverable c := .of_phase (by rw [hp]; rfl) (by simp [hp])
  unfold drivePrepareIntent
  rw [call_then]
  refine h.plain hc rfl fun r u hu hcu => ?_
  cases r
  case false => exact hu.ok hcu rfl
  simp only [call_then]
  refine hu.plain hcu rfl fun r u hu hcu => ?_
  rcases r with e | _ | target
  · trivial
  · exact hu.recover hcu hr _
  · simp only [nowUtcMs_then]
    refine hu.now fun now u hu => ?_
    have hcn := hcu.push (e := .nowUtcMs) rfl (some now)
    split_ifs with hl
    · refine Safe.bind (ok_startClock hu hcn hp) fun r v hv => ?_
      cases r with
      | error turn => exact hv
      | ok =>
        obtain ⟨⟨now', timeoutSeconds, hs, hcs⟩, hrv⟩ := hv
        exact ok_prepareAgent hs hcs hp rfl hrv hp
    · refine ok_prepareAgent hu hcn hp rfl ?_ hp
      exact ((hrd.push rfl _).push rfl _).push rfl _

theorem ok_drivePrepared (h : At dev c T w) (hc : Calm T.log) (hp : c.phase = .prepared) :
    Ok dev P inv (TurnOk dev) (drivePrepared c) w := by
  have hr : Recoverable c := .of_phase (by rw [hp]; rfl) (by simp [hp])
  unfold drivePrepared
  rw [call_then]
  refine h.plain hc rfl fun r u hu hcu => ?_
  cases r with
  | error e => trivial
  | ok target =>
    simp only
    split_ifs with hl hd
    · exact hu.advanceTo hcu (.dispatchedBefore (.inl hp) hd)
    · exact hu.recover hcu hr _
    · rw [nowUtcMs_then]
      refine hu.now fun now u hu => ?_
      have hcn := hcu.push (e := .nowUtcMs) rfl (some now)
      exact hu.update rfl hcn rfl fun _ _ => .intend hp now c.executionTimeoutSeconds

/-! ### dispatch -/

/-- The trail after the send was counted. -/
def Trail.counted (T : Trail) (c : ActiveAttempt) (tid : String)
    (baseline : Except String (Option Int)) : Trail :=
  (((T.entered c).push (.agentStatusBaseline tid) baseline).saved
    (c.mapExecutor (·.countSend (baseline.toOption.getD none)))).push .unlock ()

def Counted (dev : Device) (c : ActiveAttempt) (T : Trail) (tid : String) (r : Except Turn Unit)
    (w : World) : Prop :=
  match r with
  | .error turn => TurnOk dev turn w
  | .ok () => ∃ baseline : Except String (Option Int),
      At dev (c.mapExecutor (·.countSend (baseline.toOption.getD none))) (T.counted c tid baseline) w

theorem ok_countSend {tid : String} (h : At dev c T w) (hc : Calm T.log)
    (hp : c.phase = .dispatchIntent)
    (ho : c.executor.bind (·.lastDispatchOutcome) ≠ some "ambiguous")
    (hn : (c.executor.map (·.dispatchSendCount)).getD 0 < 2) :
    Ok dev P inv (Counted dev c T tid) (countSend c tid) w := by
  unfold countSend
  refine h.withCurrent rfl (fun _ _ => trivial) (fun w' hn => .gone hn) fun u hu => ?_
  rw [call_then]
  refine hu.plain (hc.entered c) rfl fun baseline u hu hcu => ?_
  refine hu.save (.count hp tid baseline ho hn ?_) (fun hs => absurd hs hcu)
    (fun _ _ hl => ⟨hl, trivial⟩) fun v hl hv => ⟨hl, baseline, ?_, hv.sound, hv.known⟩
  · rw [hu.log]
    rfl
  · show Trail.push v.trail .unlock () = _
    rw [hv.trail]
    rfl

theorem ok_sendPrompt {tid : String} {target : Option LocalTarget}
    {baseline : Except String (Option Int)} {rest : List Entry}
    (h : At dev (c.mapExecutor (·.countSend (baseline.toOption.getD none))) T w) (hc : Calm T.log)
    (hp : c.phase = .dispatchIntent)
    (hs : ∀ w', At dev (c.mapExecutor (·.countSend (baseline.toOption.getD none))) T w' →
      SendReady dev w' c tid target baseline rest) :
    Ok dev P inv (TurnOk dev) (sendPrompt c tid) w := by
  unfold sendPrompt
  rw [call_then]
  refine h.ask rfl (fun w' h' => .calm ⟨_, _, _, hs w' h'⟩ (h'.log ▸ hc)) fun w' x r h' _ => ?_
  have hu := h'.record (.dispatch c tid) r
  have hcu : Calm _ := hc.push (e := .dispatch c tid) rfl (some r)
  have hp' : (c.mapExecutor (·.countSend (baseline.toOption.getD none))).phase = .dispatchIntent := hp
  have ho : (c.mapExecutor (·.countSend (baseline.toOption.getD none))).executor.bind
      (·.lastDispatchOutcome) ≠ some "ambiguous" := by
    have := (hs w' h').clear
    unfold ActiveAttempt.mapExecutor
    cases hx : c.executor with
    | none => simp
    | some exec =>
      rw [hx] at this
      exact this
  have hlog : ∀ v c', Under dev c' ((T.push (.dispatch c tid) r).entered c') v →
      latest v.log = some (.call (.dispatch c tid) (some r)) := fun v c' hv => by
    rw [hv.log]
    rfl
  cases r with
  | error e => exact hu.ok hcu rfl
  | ok outcome =>
    cases outcome with
    | accepted requestId acceptedAtMs turnStarted =>
      exact hu.update rfl hcu rfl fun v hv =>
        .accept hp' c tid requestId acceptedAtMs turnStarted ho (hlog v _ hv)
    | knownRejectedBeforeAcceptance reason =>
      exact hu.update rfl hcu rfl fun v hv => .reject hp' c tid reason ho (hlog v _ hv)
    | ambiguousTransportFailure error =>
      exact hu.update rfl hcu rfl fun v hv => .doubt hp' c tid error ho (hlog v _ hv)
    | recoveryRequired code message =>
      exact hu.update rfl hcu rfl fun v hv =>
        .recover (.of_phase (by rw [hp']; rfl) (by simp [hp']))

theorem ok_driveDispatchIntent (h : At dev c (T.loaded c) w) (hc : Calm T.log)
    (hp : c.phase = .dispatchIntent) :
    Ok dev P inv (TurnOk dev) (driveDispatchIntent c) w := by
  have hr : Recoverable c := .of_phase (by rw [hp]; rfl) (by simp [hp])
  unfold driveDispatchIntent
  rw [call_then]
  refine h.plain (hc.loaded c) rfl fun r u hu hcu => ?_
  cases r with
  | error e => trivial
  | ok target =>
    simp only
    split_ifs with hl hd
    · exact hu.advanceTo hcu (.dispatchedBefore (.inr hp) hd)
    · exact hu.recover hcu hr _
    · cases ht : c.executor.bind (·.terminalId) with
      | none => exact hu.recover hcu hr _
      | some tid =>
        unfold reconcileAndDispatch
        simp only [call_then]
        refine hu.plain hcu rfl fun r u hu hcu => ?_
        cases r with
        | error e => exact hu.ok hcu rfl
        | ok answer =>
          cases answer with
          | ambiguous => exact hu.recover hcu hr _
          | accepted requestId =>
            refine hu.edit rfl fun v hv => ?_
            rw [nowUtcMs_then]
            refine hv.now fun now v hv => ?_
            refine hv.saveEnd (.reconcile hp requestId now tid ?_) (.inl ?_) rfl
            · rw [hv.log]
              rfl
            · exact (hcu.entered c).push (e := .nowUtcMs) rfl _
          | definitelyNotDispatched =>
            unfold resend
            simp only
            split_ifs with ho hn
            · exact hu.recover hcu hr _
            · refine hu.edit rfl fun v hv => ?_
              rw [nowUtcMs_then]
              refine hv.now fun now v hv => ?_
              refine hv.saveEnd (.exhaust hp now ho hn tid ?_) (.inl ?_) rfl
              · rw [hv.log]
                rfl
              · exact (hcu.entered c).push (e := .nowUtcMs) rfl _
            · refine Safe.bind (ok_countSend hu hcu hp ho (by omega)) fun r v hv => ?_
              cases r with
              | error turn => exact hv
              | ok =>
                obtain ⟨baseline, hv⟩ := hv
                have hs : ∀ w', At dev (c.mapExecutor _)
                    ((((T.loaded c).push (.loadConfig c.targetId) (.ok target)).push
                      (.reconcileDispatch c tid) (.ok .definitelyNotDispatched)).counted
                        c tid baseline) w' →
                    SendReady dev w' c tid target baseline T.log := fun w' h' =>
                  { worker := by simpa using hl
                    phase := hp
                    clear := ho
                    budget := by omega
                    terminal := ht
                    known := h'.used ▸ h'.known
                    sound := h'.sound
                    log := h'.log }
                exact ok_sendPrompt hv ((calm_call rfl rfl).push rfl _) hp hs

/-! ### the waiting loop -/

section

variable {l : WaitLoop}

theorem Looping.known_at (h : Looping dev l w) : At dev l.saved w.trail w := ⟨rfl, h.sound, h.known⟩

theorem WaitLoop.saved_isStructured (h : l.active.executor.bind (·.terminalId) = some l.terminalId) :
    l.saved.isStructured = l.structuredLifecycleObserved := by
  unfold WaitLoop.saved ActiveAttempt.isStructured ActiveAttempt.mapExecutor
  cases he : l.active.executor with
  | none => simp [he] at h
  | some exec => simp

/-- The loop starts with the flags of the file. -/
theorem WaitLoop.saved_self {a : ActiveAttempt} {exec : AttemptExecutorState} (tid : String)
    (deadlineMs : Int) (he : a.executor = some exec) :
    WaitLoop.saved ⟨a, tid, deadlineMs, exec.turnStartedObserved,
      exec.structuredLifecycleObserved⟩ = a := by
  cases a
  cases he
  rfl

theorem Completes.of_latest {log log' : List Entry} {kind : String}
    {err : Option ExecutionReportError} (h : Completes log c kind err)
    (hl : latest log' = latest log) : Completes log' c kind err := by
  have hw : ∀ o, Waited log o → Waited log' o := fun o ⟨a, tid, hh⟩ => ⟨a, tid, hl.trans hh⟩
  cases h with
  | managed => exact .managed
  | timedOut h => exact .timedOut h
  | done h hd ht => exact .done h (hw _ hd) ht
  | idle h hd hs => exact .idle h (hw _ hd) hs
  | interrupted reason hd => exact .interrupted reason (hw _ hd)

theorem ok_recordCompletion {d : Completion} (h : At dev l.saved T w)
    (hp : l.active.phase = .waiting) (hc : Completes T.log l.saved d.kind d.err) :
    Ok dev P inv (TurnOk dev) (recordCompletion l d) w := by
  have hp' : l.saved.phase = .waiting := hp
  refine h.edit rfl fun v hv => ?_
  rw [nowUtcMs_then]
  refine hv.now fun now v hv => ?_
  refine hv.saveEnd (.complete hp' d.kind now d.err (hc.of_latest ?_)) (.inr (.inr (.head _))) rfl
  rw [hv.log]
  rfl

theorem ok_timedOut (h : At dev l.saved T w) (hp : l.active.phase = .waiting) :
    Ok dev P inv (TurnOk dev) (timedOut l) w := by
  have hct : Coded (some executionTimeout) := fun e he => by
    cases he
    simp [executionTimeout, recordedCodes]
  unfold timedOut
  split_ifs with hr
  · rw [call_then]
    refine h.capture fun r u hu => ?_
    cases r with
    | ok captured =>
      exact ok_recordCompletion hu hp (.timedOut fun e he => by cases he)
    | error e => exact ok_recordCompletion hu hp (.timedOut hct)
  · exact ok_recordCompletion h hp (.timedOut hct)

theorem ok_finished {kind missing : String} (h : At dev l.saved T w)
    (hp : l.active.phase = .waiting)
    (hc : ∀ log err, Coded err → latest log = latest T.log → Completes log l.saved kind err) :
    Ok dev P inv (TurnOk dev) (finished l kind missing) w := by
  unfold finished
  split_ifs with hr
  · rw [call_then]
    refine h.capture fun r u hu => ?_
    rcases r with e | captured
    · cases e with
      | notFound =>
        refine ok_recordCompletion hu hp (hc _ _ (fun e he => ?_) rfl)
        cases he
        simp [recordedCodes]
      | other text =>
        refine ok_recordCompletion hu hp (hc _ _ (fun e he => ?_) rfl)
        cases he
        simp [recordedCodes]
    · exact ok_recordCompletion hu hp (hc _ _ (fun e he => by cases he) rfl)
  · exact ok_recordCompletion h hp (hc _ _ (fun e he => by cases he) rfl)

/-- The loop goes on in the same state. -/
theorem Looping.again (hl : Looping dev l w) {w' : World} (h : At dev l.saved T w')
    (hs : Seen T.log → l.structuredLifecycleObserved = true) :
    Ok dev P inv (TurnOk dev) (.done (.waiting l)) w' := by
  refine { hl with sound := h.sound, known := ?_, settled := ?_ }
  · rw [h.used]
    exact h.known
  · rw [h.log]
    exact hs

/-- The loop goes on after the evidence is saved. -/
theorem ok_saveEvidence {edit : AttemptExecutorState → AttemptExecutorState} (started : Bool)
    (hl : Looping dev l w) {w' : World} (h : At dev l.saved T w')
    (he : ∀ v, Under dev l.saved (T.entered l.saved) v →
      Edit dev v l.saved (l.saved.mapExecutor edit))
    (hs : l.saved.mapExecutor edit = WaitLoop.saved { l with
      turnStartedObserved := started, structuredLifecycleObserved := true }) :
    Ok dev P inv (TurnOk dev) (saveEvidence l edit { l with
      turnStartedObserved := started, structuredLifecycleObserved := true }) w' := by
  refine h.edit rfl fun v hv => ?_
  refine hv.save (he v hv) (fun _ => .inl ?_) (fun _ _ hk => ⟨hk, trivial⟩) fun u hlk hu => ?_
  · show ActiveAttempt.isStructured (l.saved.mapExecutor edit) = true
    rw [hs]
    exact WaitLoop.saved_isStructured hl.terminal
  · refine ⟨hlk, { hl with sound := ?_, known := ?_, settled := fun _ => rfl }⟩
    · rw [← hs]
      exact hu.sound
    · exact hu.used ▸ hu.known

theorem ok_observed {o : WaitOutcome} (hl : Looping dev l w) {w' : World}
    (h : At dev l.saved (T.push (.wait l.active l.terminalId) (.ok o)) w') :
    Ok dev P inv (TurnOk dev) (observed l o) w' := by
  have hp : l.saved.phase = .waiting := hl.phase
  have hw : Waited (T.push (.wait l.active l.terminalId) (.ok o)).log o :=
    ⟨l.active, l.terminalId, rfl⟩
  have hws : ∀ v, Under dev l.saved
      ((T.push (.wait l.active l.terminalId) (.ok o)).entered l.saved) v → Waited v.log o :=
    fun v hv => by
      rw [hv.log]
      exact hw
  -- an outcome that says nothing of the agent leaves nothing to record
  have hquiet : o.isStructured = false →
      Seen (T.push (.wait l.active l.terminalId) (.ok o)).log →
      l.structuredLifecycleObserved = true := by
    rintro ho ⟨o', ho', a, tid, hh⟩
    cases hh
    rw [ho] at ho'
    cases ho'
  have hturn : ∀ exec, l.saved.executor = some exec →
      exec.turnStartedObserved = l.turnStartedObserved ∧
        exec.structuredLifecycleObserved = l.structuredLifecycleObserved := by
    intro exec he
    obtain ⟨exec', -, rfl⟩ := Option.map_eq_some_iff.1 he
    exact ⟨rfl, rfl⟩
  cases o with
  | workingObserved =>
    simp only [observed]
    split_ifs with hb
    · simp only [Bool.and_eq_true] at hb
      exact hl.again h fun _ => hb.2
    · refine ok_saveEvidence true hl h (fun v hv => .working hp (hws v hv)) ?_
      simp [WaitLoop.saved, ActiveAttempt.mapExecutor, AttemptExecutorState.observeWorking,
        Function.comp_def]
  | agentSeen =>
    simp only [observed]
    split_ifs with hb
    · exact hl.again h fun _ => hb
    · refine ok_saveEvidence l.turnStartedObserved hl h
        (fun v hv => .seen hp (.inl (hws v hv))) ?_
      simp [WaitLoop.saved, ActiveAttempt.mapExecutor, AttemptExecutorState.observeAgent,
        Function.comp_def]
  | agentDone =>
    simp only [observed]
    split_ifs with ht hb
    · refine ok_finished h hl.phase fun log err he hh => .done he ?_ fun exec hx => ?_
      · obtain ⟨a, tid, hh'⟩ := hw
        exact ⟨a, tid, hh.trans hh'⟩
      · rw [(hturn exec hx).1, ht]
    · exact hl.again h fun _ => hb
    · refine ok_saveEvidence l.turnStartedObserved hl h
        (fun v hv => .seen hp (.inr (hws v hv))) ?_
      simp [WaitLoop.saved, ActiveAttempt.mapExecutor, AttemptExecutorState.observeAgent,
        Function.comp_def]
  | tuiIdle =>
    simp only [observed]
    split_ifs with hb ht
    · exact hl.again h (hquiet rfl)
    · refine ok_finished h hl.phase fun log err he hh => .idle he ?_ fun exec hx => ?_
      · obtain ⟨a, tid, hh'⟩ := hw
        exact ⟨a, tid, hh.trans hh'⟩
      · rw [(hturn exec hx).2]
        simpa using hb
    · exact hl.again h (hquiet rfl)
  | interrupted reason => exact ok_recordCompletion h hl.phase (.interrupted reason hw)
  | timedOut => exact hl.again h (hquiet rfl)

theorem ok_observe (hl : Looping dev l w) {w' : World} (h : At dev l.saved T w')
    (hc : Calm T.log) : Ok dev P inv (TurnOk dev) (observe l) w' := by
  unfold observe
  rw [nowUtcMs_then]
  refine h.now fun now u hu => ?_
  have hcn := hc.push (e := .nowUtcMs) rfl (some now)
  split_ifs with hd
  · exact ok_timedOut hu hl.phase
  · rw [call_then]
    have hn : ∀ v, At dev l.saved (T.push .nowUtcMs now) v →
        Needs dev v (.wait l.active l.terminalId) := fun v hv => by
      refine .calm ⟨l, rfl, rfl, { hl with sound := hv.sound, known := ?_, settled := ?_ }⟩
        (hv.log ▸ hcn)
      · rw [hv.used]
        exact hv.known
      · rw [hv.log]
        exact fun hs => absurd hs hcn
    refine hu.ask rfl hn fun v x r hv _ => ?_
    have hv' := hv.record (.wait l.active l.terminalId) r
    cases r with
    | error e => trivial
    | ok o => exact ok_observed hl hv'

theorem ok_barrier (hl : Looping dev l w) {w' : World} (h : At dev l.saved T w')
    (hc : Calm T.log) : Ok dev P inv (TurnOk dev) (barrier l) w' := by
  unfold barrier
  split_ifs with hr
  · rw [call_then]
    refine h.capture fun r u hu => ?_
    cases r with
    | ok captured => exact ok_recordCompletion hu hl.phase .managed
    | error e => exact ok_observe hl hu (hc.push (e := .captureManagedResult _) rfl _)
  · exact ok_observe hl h hc

theorem ok_waitRound (hl : Looping dev l w) : Ok dev P inv (TurnOk dev) (waitRound dev l) w := by
  unfold waitRound
  rw [nowUtcMs_then]
  refine hl.known_at.now fun now u hu => ?_
  split_ifs with hd
  case neg => exact ok_timedOut hu hl.phase
  rw [call_then]
  refine hu.ask rfl (fun v hv => ⟨trivial, fun _ hs c hc => ?_⟩) fun v x r hv _ => ?_
  · obtain rfl := hv.sound.of_holds hc
    refine .inl ?_
    rw [WaitLoop.saved_isStructured hl.terminal]
    refine hl.settled ?_
    rw [hv.log] at hs
    exact hs
  have hv' := hv.record (.getJob l.active.jobId) r
  have hcv : Calm ((w.trail.push .nowUtcMs now).push (.getJob l.active.jobId) r).log :=
    calm_call rfl rfl
  cases r with
  | error e => exact ok_barrier hl hv' hcv
  | ok detail =>
    simp only
    split_ifs with hx
    · refine hv'.plain (e := .interrupt l.active l.terminalId) hcv rfl fun r u hu hcu => ?_
      exact ok_finalized hu hcu (by
        show l.active.phase ∈ _
        simp [convergingPhases, hl.phase])
    · exact ok_barrier hl hv' hcv

end

theorem ok_driveWaiting (h : At dev c T w) (hc : Calm T.log) (hp : c.phase = .waiting) :
    Ok dev P inv (TurnOk dev) (driveWaiting c) w := by
  have hr : Recoverable c := .of_phase (by rw [hp]; rfl) (by simp [hp])
  unfold driveWaiting
  cases ht : c.executor.bind (·.terminalId) with
  | none => exact h.recover hc hr _
  | some tid =>
    cases hd : c.executor.bind (·.dispatchRequestId) with
    | none => exact h.recover hc hr _
    | some requestId =>
      cases hx : c.executor.bind (·.executionDeadlineMs) with
      | none => exact h.recover hc hr _
      | some deadlineMs =>
        cases he : c.executor with
        | none => simp [he] at ht
        | some exec =>
          refine ⟨?_, h.used ▸ h.known, hp, ht, hx, fun hs => ?_⟩
          · exact (WaitLoop.saved_self tid deadlineMs he).symm ▸ h.sound
          · exact absurd hs (calm_of_trail h.trail hc)

/-! ### the report -/

/-- What is known while the report is made. -/
structure Judging (dev : Device) (c : ActiveAttempt) (T : Trail) (w : World) : Prop where
  at_ : At dev c T w
  calm : Calm T.log
  reading : Reading c T.log

theorem Judging.ask {α : Type} {Q : α → World → Prop} {e : Call} {k : Answer e → Prog α}
    (h : Judging dev c T w) (he : e.isPlain = true)
    (hk : ∀ r w', Judging dev c (T.push e r) w' → Ok dev P inv Q (k r) w') :
    Ok dev P inv Q (.call e k) w :=
  h.at_.plain h.calm he fun r w' h' hc =>
    hk r w' ⟨h', hc, h.reading.push (Call.not_reading_of_plain he) _⟩

theorem Judging.now {α : Type} {Q : α → World → Prop} {k : Int → Prog α} (h : Judging dev c T w)
    (hk : ∀ now w', Judging dev c (T.push .nowUtcMs now) w' → Ok dev P inv Q (k now) w') :
    Ok dev P inv Q (.call .nowUtcMs k) w :=
  h.ask rfl hk

/-- A verdict, or the end of the pass. -/
def Judged (dev : Device) (c : ActiveAttempt) (exec : AttemptExecutorState)
    (r : Except Turn Verdict) (w : World) : Prop :=
  match r with
  | .error turn => TurnOk dev turn w
  | .ok v => VerdictOf c exec v ∧ Judging dev c w.trail w

theorem Judging.judged {exec : AttemptExecutorState} {v : Verdict} (h : Judging dev c T w)
    (hv : VerdictOf c exec v) : Ok dev P inv (Judged dev c exec) (.done (.ok v)) w := by
  obtain rfl := h.at_.trail
  exact ⟨hv, h⟩

theorem ok_captureOrFail {exec : AttemptExecutorState} (pre : String) (h : Judging dev c T w)
    (hv : ∀ captured, VerdictOf c exec (.completed (some captured))) :
    Ok dev P inv (Judged dev c exec) (captureOrFail c pre) w := by
  unfold captureOrFail
  rw [call_then]
  refine h.ask rfl fun r u hu => ?_
  rcases r with e | captured
  · cases e <;> trivial
  · exact hu.judged (hv captured)

theorem ok_completedResource {exec : AttemptExecutorState} (h : Judging dev c T w)
    (hv : ∀ captured, VerdictOf c exec (.completed (some captured))) :
    Ok dev P inv (Judged dev c exec) (completedResource c) w := by
  unfold completedResource
  rw [call_then]
  refine h.ask rfl fun r u hu => ?_
  cases r
  case false => exact ok_captureOrFail _ hu hv
  simp only [call_then]
  refine hu.ask rfl fun r u hu => ?_
  rcases r with e | captured
  · exact ok_captureOrFail _ hu hv
  · exact hu.judged (hv captured)

theorem ok_timedOutResource {exec : AttemptExecutorState} (h : Judging dev c T w)
    (hv : ∀ captured, VerdictOf c exec (.completed (some captured)))
    (ht : VerdictOf c exec (timedOutVerdict exec)) :
    Ok dev P inv (Judged dev c exec) (timedOutResource c exec) w := by
  unfold timedOutResource
  rw [call_then]
  refine h.ask rfl fun r u hu => ?_
  cases r
  case false | true =>
    simp only [call_then]
    refine hu.ask rfl fun r u hu => ?_
    rcases r with e | captured
    · exact hu.judged ht
    · exact hu.judged (hv captured)

theorem ok_verdict {exec : AttemptExecutorState} (h : Judging dev c T w)
    (hp : c.phase = .outcomeRecorded) (he : c.executor = some exec) :
    Ok dev P inv (Judged dev c exec) (verdict c exec) w := by
  by_cases hk : exec.runtimeCompletionKind ∈ completedKinds
  · cases hx : exec.runtimeError with
    | some e =>
      rw [verdict_of_error hk hx]
      exact h.judged (.failed hk e hx)
    | none =>
      rw [verdict_of_completed hk hx]
      split_ifs with hr
      · refine ok_completedResource h fun captured => .delivered ?_ hr captured
        simp only [completedKinds, List.mem_cons, List.not_mem_nil, or_false] at hk ⊢
        tauto
      · exact h.judged (.completed hk hx (by simpa using hr))
  have hother : ∀ k ∈ completedKinds, exec.runtimeCompletionKind ≠ k := fun k hm he =>
    hk (he ▸ hm)
  unfold verdict
  split
  case h_1 hk => exact absurd hk (hother _ (by simp [completedKinds]))
  case h_2 hk => exact absurd hk (hother _ (by simp [completedKinds]))
  case h_3 hk => exact absurd hk (hother _ (by simp [completedKinds]))
  case h_4 hk =>
    split_ifs with hr
    · exact ok_timedOutResource h (fun captured => .delivered (by simp [hk]) hr captured)
        (.timedOut hk)
    · exact h.judged (.timedOut hk)
  case h_5 hk => exact h.judged (.interrupted hk)
  case h_6 hk => exact h.judged (.notStarted hk)
  case h_7 h1 h2 h3 h4 h5 h6 =>
    have hr : Recoverable c := by
      refine ⟨by rw [hp]; rfl, fun _ exec' he' k hk => ?_⟩
      rw [he] at he'
      cases he'
      simp only [knownKinds, List.mem_cons, List.not_mem_nil, or_false] at hk
      rcases hk with rfl | rfl | rfl | rfl | rfl | rfl <;> assumption
    refine Safe.bind (h.at_.recover h.calm hr _) fun turn v hv => ?_
    exact hv

theorem ok_cleanup {exec : AttemptExecutorState} {status : ExecutionStatus}
    (h : Judging dev c T w) :
    Ok dev P inv (fun _ w => Judging dev c w.trail w) (cleanup c exec status) w := by
  have hdone : ∀ {T w}, Judging dev c T w → Judging dev c w.trail w := fun h => by
    obtain rfl := h.at_.trail
    exact h
  unfold cleanup
  split
  · split
    · exact hdone h
    · rw [call_then]
      refine h.ask rfl fun r u hu => ?_
      cases r <;> exact hdone hu
  · split
    · exact hdone h
    · exact h.ask (e := .interrupt _ _) rfl fun r u hu => hdone hu
  · exact hdone h

theorem ok_timeOrNow (t : Option Int) (h : Judging dev c T w) :
    Ok dev P inv (fun _ w => Judging dev c w.trail w) (timeOrNow t) w := by
  have hdone : ∀ {T w}, Judging dev c T w → Judging dev c w.trail w := fun h => by
    obtain rfl := h.at_.trail
    exact h
  cases t with
  | some t => exact hdone h
  | none => exact h.now fun now u hu => hdone hu

theorem outboxFile_put (o : OutboxRecord) (w : World) :
    (w.putOutbox o).outboxFile o.jobId o.attemptId = some o := by
  simp [World.putOutbox, World.outboxFile, World.key]

/-- The attempt is finalized, or the pass has ended. -/
def Written (dev : Device) (r : Except Turn Unit) (w : World) : Prop :=
  match r with
  | .error turn => TurnOk dev turn w
  | .ok () => Calm w.log

include known in
theorem ok_saveReport {exec : AttemptExecutorState} {v : Verdict} {closed : Bool × Option Int}
    {startedMs completedMs : Int} (h : Judging dev c T w) (hp : c.phase = .outcomeRecorded)
    (he : c.executor = some exec) (hv : VerdictOf c exec v) :
    Ok dev P inv (TurnOk dev)
      (saveReport dev c v (reportOf dev c exec v closed startedMs completedMs)) w := by
  unfold saveReport
  cases hval : (reportOf dev c exec v closed startedMs completedMs).validate with
  | error e => trivial
  | ok =>
    simp only [nowUtcMs_then]
    refine h.now fun now u hu => ?_
    rw [call_then]
    set o := outboxRecordOf dev c v (reportOf dev c exec v closed startedMs completedMs) now with ho
    have hn : ∀ w', At dev c (T.push .nowUtcMs now) w' → Needs dev w' (.saveOutbox o) :=
      fun w' h' => by
      refine .calm ⟨c, exec, v, closed, startedMs, completedMs, now, h'.sound, ?_, ?_, hp, he, hv,
        ho⟩ (h'.log ▸ hu.calm)
      · rw [h'.used]
        exact h'.known
      · rw [h'.log]
        exact hu.reading
    refine hu.at_.file rfl hn fun w' x r h' hr t ht => ?_
    have hct : Calm ((T.push .nowUtcMs now).filed (.saveOutbox o) r
        (effect dev w' (.saveOutbox o) x).outbox).log := hu.calm.push (e := .saveOutbox o) rfl _
    rcases r with e | _
    · trivial
    · have hout : (effect dev w' (.saveOutbox o) x).outboxFile c.jobId c.attemptId = some o := by
        have hov : o.report.validate = .ok () := hval
        cases x <;> simp only [answer, hov] at hr
        case ok =>
          simp only [effect, hov, Except.isOk, Except.toBool, Reply.writes, Bool.and_self, if_true]
          exact outboxFile_put o w'
        all_goals cases hr
      refine Safe.bind (p := withCurrent Except.error c _) ?_ fun r z (hz : Written dev r z) => ?_
      · refine ht.withCurrent rfl (fun _ _ => trivial) (fun _ hn => .gone hn) fun z hz => ?_
        refine hz.save (.finalize hp o ?_) (fun hs => absurd hs (hct.entered c))
          (fun _ _ hl => ⟨hl, trivial⟩) fun y hl hy => ⟨hl, ?_⟩
        · have := hz.weaken.outbox
          unfold World.outboxFile
          rw [this]
          exact hout
        · exact calm_release (calm_of_trail hy.trail (calm_call rfl rfl))
      · cases r with
        | error turn => exact hz
        | ok => exact Safe.bind (ok_flushOutbox known hz) fun _ y hy => .calm hy

include known in
theorem ok_driveOutcomeRecorded (h : Judging dev c T w) (hp : c.phase = .outcomeRecorded) :
    Ok dev P inv (TurnOk dev) (driveOutcomeRecorded dev c) w := by
  unfold driveOutcomeRecorded
  cases he : c.executor with
  | none => trivial
  | some exec =>
    refine Safe.bind (ok_verdict h hp he) fun r u hu => ?_
    cases r with
    | error turn => exact hu
    | ok v =>
      obtain ⟨hv, hu⟩ := hu
      refine Safe.bind (ok_cleanup hu) fun closed u hu => ?_
      cases closed with
      | none => exact .calm hu.calm
      | some closed =>
        refine Safe.bind (ok_timeOrNow _ hu) fun startedMs u hu => ?_
        refine Safe.bind (ok_timeOrNow _ hu) fun completedMs u hu => ?_
        exact ok_saveReport known hu hp he hv

include known in
theorem ok_driveFinalizedLocal (h : At dev c (T.loaded c) w) (hc : Calm T.log)
    (hp : c.phase = .finalizedLocal) :
    Ok dev P inv (TurnOk dev) (driveFinalizedLocal dev c) w := by
  unfold driveFinalizedLocal
  rw [call_then]
  refine h.plain (hc.loaded c) rfl fun r u hu hcu => ?_
  cases r
  case true =>
    simp only [call_then]
    refine hu.ask rfl (fun v hv => .calm trivial (hv.log ▸ hcu)) fun v x r hv hr => ?_
    have hcv : Calm (v.record _ r).log := (hv.log.symm ▸ hcu : Calm v.log).push rfl _
    rcases r with e | outbox
    · trivial
    · simp only
      split_ifs with hid
      · refine Safe.bind (ok_deliver known rfl hcv (outboxFile_loaded hr)) fun r z hz => ?_
        rcases r with e | _
        · cases e <;> first | trivial | exact .calm hz
        · exact .calm hz
      · trivial
  case false =>
    simp only [call_then]
    refine hu.plain hcu rfl fun r u hu hcu => ?_
    rcases r with e | _ | hist
    · trivial
    · trivial
    · simp only
      split_ifs with hid
      · refine ok_withLock (fun _ _ => trivial) fun v hf => ?_
        have hg := (hu.frame hf).grab
        have hcg : Calm _ := hcu.push (e := .lock) rfl (some true)
        refine hg.removeLocked rfl (.calm ?_ (hg.log ▸ hcg)) fun r v hl hv => ?_
        · show Removes dev _ (World.grab _).log
          rw [hg.log]
          exact .recorded c hist T.log rfl hg.sound hp ⟨hid.1, hid.2.1⟩ hid.2.2.2
        · have := hcg.push (e := .removeActive) rfl (some r)
          cases r
          case false => exact ⟨hl, trivial⟩
          case true => exact ⟨hl, .calm (calm_release (calm_of_trail hv.trail this))⟩
      · trivial

/-! ### recovery -/

/-- The attempt and what the block was entered with, and a result only for a resource job. -/
def Captured (dev : Device) (c : ActiveAttempt) (T : Trail) (captured : Bool) (w : World) : Prop :=
  (captured = true → isResource c = true) ∧
    ∃ T', Under dev c T' w ∧ lastAsked T'.log = lastAsked T.log

theorem ok_hasCapturedResult (h : Under dev c T w) (hc : Calm T.log) :
    Ok dev P inv (Captured dev c T) (hasCapturedResult c) w := by
  unfold hasCapturedResult
  split_ifs with hr
  case neg => exact ⟨fun h => (by cases h), _, h, rfl⟩
  rw [call_then]
  refine h.plain hc rfl fun r v hv hcv => ?_
  cases r
  case true => exact ⟨fun _ => hr, _, hv, rfl⟩
  simp only [call_then]
  refine hv.plain hcv rfl fun r v hv _ => ?_
  cases r <;> exact ⟨fun _ => hr, _, hv, rfl⟩

theorem ok_terminalize {detail : JobDetail} (h : At dev c T w) (hc : Calm T.log)
    (hp : c.phase = .recoveryRequired)
    (hl : lastAsked T.log = some (.call (.getJob c.jobId) (some (.ok detail))))
    (hd : detail.state ≠ "terminal" ∧ detail.execution.map (·.attemptId) = some c.attemptId) :
    Ok dev P inv (TurnOk dev) (terminalize c detail) w := by
  refine h.edit rfl fun v hv => ?_
  refine Safe.bind (ok_hasCapturedResult hv (hc.entered c)) fun captured v hv => ?_
  obtain ⟨hcap, T', hv, hT⟩ := hv
  rw [nowUtcMs_then]
  refine hv.now fun now v hv => ?_
  refine hv.saveEnd (.terminalize hp detail captured now hcap ?_ hd) (.inr (.inr (.head _))) rfl
  rw [hv.log]
  exact hT.trans hl

theorem ok_driveRecoveryRequired (h : At dev c T w) (hc : Calm T.log)
    (hp : c.phase = .recoveryRequired) :
    Ok dev P inv (TurnOk dev) (driveRecoveryRequired dev c) w := by
  unfold driveRecoveryRequired
  refine Safe.bind (ok_reconcile h hc (by simp [convergingPhases, hp])) fun r u hu => ?_
  cases r with
  | finalized | noMarker => exact .calm hu.2
  | blocked reason =>
    simp only [call_then]
    refine hu.1.plain hu.2 rfl fun r v hv hcv => ?_
    cases r with
    | error e => trivial
    | ok detail =>
      simp only
      split_ifs with hx
      · exact ok_terminalize hv hcv hp rfl hx
      · trivial

/-! ### passes and rounds -/

include known in
theorem ok_drivePhase (h : At dev c (T.loaded c) w) (hc : Calm T.log) :
    Ok dev P inv (TurnOk dev) (drivePhase dev c) w := by
  have hcl := hc.loaded c
  unfold drivePhase
  split
  case h_1 hp => exact ok_driveClaimIntent h hc hp
  case h_2 hp => exact h.advanceTo hcl (.prepare hp)
  case h_3 hp => exact ok_driveStartIntent h hcl hp
  case h_4 hp => exact h.advanceTo hcl (.wait hp)
  case h_5 hp => exact ok_drivePrepareIntent h hcl hp rfl
  case h_6 hp => exact ok_drivePrepared h hcl hp
  case h_7 hp => exact ok_driveDispatchIntent h hc hp
  case h_8 hp => exact h.advanceTo hcl (.sent hp)
  case h_9 hp => exact ok_driveWaiting h hcl hp
  case h_10 hp => exact ok_driveOutcomeRecorded known ⟨h, hcl, rfl⟩ hp
  case h_11 hp => exact ok_driveFinalizedLocal known h hc hp
  case h_12 hp => exact ok_driveRecoveryRequired h hcl hp
  case h_13 hp => exact h.recover hcl (.of_phase (by rw [hp]; rfl) (by simp [hp])) _

include known in
theorem ok_driveActiveAttempt (hc : Calm w.log) :
    Ok dev P inv (TurnOk dev) (driveActiveAttempt dev) w := by
  unfold driveActiveAttempt
  rw [call_then]
  refine ok_load known rfl (fun r u hr _ hu _ => ?_) fun a u hu _ => ?_
  · rcases r with e | _ | a
    · trivial
    · exact .calm (calm_of_trail hu (hc.push rfl _))
    · exact absurd rfl (hr a)
  · simp only
    split_ifs with hid
    · trivial
    · exact ok_drivePhase known hu hc

/-- What a round of the daemon's life leaves behind. -/
def OutOk (dev : Device) : Out → World → Prop
  | .drove _ turn, w => TurnOk dev turn w
  | .flushed, w | .idle, w => Settled dev w

include known in
theorem ok_flush (hc : Calm w.log) : Ok dev P inv (OutOk dev) (flush dev) w :=
  Safe.bind (ok_flushOutbox known hc) fun _ _ h => .calm h

include known in
theorem ok_driveOnce (first : Bool) (hc : Calm w.log) :
    Ok dev P inv (OutOk dev) (driveOnce dev first) w :=
  Safe.bind (ok_driveActiveAttempt known hc) fun _ _ h => h

include known in
theorem ok_startup (hc : Calm w.log) : Ok dev P inv (OutOk dev) (startup dev) w := by
  unfold startup
  rw [call_then]
  refine ok_plain rfl hc rfl fun r u hu hcu => ?_
  cases r
  case true => exact ok_driveOnce known _ (calm_of_trail hu hcu)
  case false => exact ok_flush known (calm_of_trail hu hcu)

theorem Settled.frame {t : World} (h : Settled dev w) (hf : Frame w t) : Settled dev t := by
  intro c hc hs
  refine h c (hc.frame hf) ?_
  rwa [show t.log = w.log from congrArg Trail.log hf.trail] at hs

/-- The first call after a round. -/
theorem ok_first {α : Type} {Q : α → World → Prop} {e : Call} {k : Answer e → Prog α}
    (h : Settled dev w) (he : e.isPlain = true) (hh : e.isHousekeeping = false)
    (hk : ∀ r w', Calm w'.log → Ok dev P inv Q (k r) w') : Ok dev P inv Q (.call e k) w := by
  refine ok_call fun v hf _ => ⟨⟨demand_plain he, fun _ hs c hc => ?_⟩, fun x r t _ _ ht => ?_⟩
  · have : Holds dev v c := by
      cases e <;> first | exact hc | cases he
    exact h.frame hf c this hs
  · rw [effect_quiet (Call.quiet_of_plain he)] at ht
    subst ht
    refine hk r _ (calm_call ?_ (Call.not_wait_of_plain he))
    cases e <;> first | exact hh | cases he

/-- The first save of an attempt. -/
theorem ok_saveIntent {α : Type} {Q : α → World → Prop} {failed : DaemonError → α} {done : α}
    {a : ActiveAttempt} (hl : w.locked = true) (ha : w.active = none)
    (hf : isFreshIntent dev a = true) (hu : a.attemptId ∉ w.used) (hc : Calm w.log)
    (hfail : ∀ e w', w'.locked = true → Q (failed e) w')
    (hd : ∀ w', w'.locked = true → Calm w'.log → Q done w') :
    Ok dev P inv Q (save failed a done) w := by
  unfold save
  rw [call_then]
  refine ok_call fun v hv _ => ⟨.calm ?_ ?_, fun x r t _ _ ht => ?_⟩
  · obtain rfl := hv.locked hl
    exact ⟨hl, .inr ⟨ha, hf, hu⟩⟩
  · obtain rfl := hv.locked hl
    exact hc
  · obtain rfl := hv.locked hl
    have hlt : t.locked = true := by
      rw [ht]
      simp only [effect]
      split_ifs <;> exact hl
    rcases r with e | _
    · exact hfail _ _ hlt
    · refine hd _ hlt ?_
      rw [ht]
      exact calm_call rfl rfl

/-- A claim intent that is on disk, or the end of the round. -/
def Claimed (dev : Device) (r : Except Out Unit) (w : World) : Prop :=
  match r with
  | .error out => OutOk dev out w
  | .ok () => Calm w.log

include known in
theorem ok_claimNext (hc : Calm w.log) : Ok dev P inv (OutOk dev) (claimNext dev) w := by
  unfold claimNext
  rw [call_then]
  refine ok_call fun v hf _ => ⟨.calm trivial (calm_of_trail hf.trail hc), fun x r t _ hr ht => ?_⟩
  rw [effect_quiet rfl] at ht
  have hct : Calm t.log := by
    rw [ht]
    exact calm_call rfl rfl
  rcases r with _ | a
  · exact .calm hct
  have hfresh : isFreshIntent dev a = true ∧ a.attemptId ∉ t.used := by
    rw [ht]
    cases x <;> try cases hr
    rename_i intent
    cases intent <;> simp only [answer] at hr
    case none => cases hr
    case some b =>
      split_ifs at hr with hb
      cases hr
      simp only [Bool.and_eq_true, Bool.not_eq_true', List.contains_eq_mem,
        decide_eq_false_iff_not] at hb
      exact hb
  refine Safe.bind (p := withLock (Except.error Out.idle) _) ?_ fun r z (hz : Claimed dev r z) => ?_
  · refine ok_withLock (fun z hz => ?_) fun z hz => ?_
    · exact .calm ((calm_of_trail hz.trail hct).push rfl _)
    rw [call_then]
    have hcz : Calm z.grab.log := (calm_of_trail hz.trail hct).push rfl _
    refine ok_load known rfl (fun r u hr hl hu hn => ?_) fun c u hu hlu => ?_
    · have hcu : Calm u.log := calm_of_trail hu (hcz.push rfl _)
      rcases r with e | _ | c
      · exact ⟨hl rfl, trivial⟩
      · have huu : a.attemptId ∉ u.used := by
          have h1 : u.used = z.used := congrArg Trail.used hu
          have h2 : z.used = t.used := congrArg Trail.used hz.trail
          rw [h1, h2]
          exact hfresh.2
        exact ok_saveIntent (hl rfl) (hn rfl) hfresh.1 huu hcu (fun _ _ hl => ⟨hl, trivial⟩)
          fun u hl hcu => ⟨hl, calm_release hcu⟩
      · exact absurd rfl (hr c)
    · exact ⟨(hlu rfl).locked, .calm (calm_release (calm_of_trail hu.trail (hcz.push rfl _)))⟩
  · cases r with
    | error out => exact hz
    | ok => exact ok_driveOnce known _ hz

include known in
theorem ok_mainLoop (h : Settled dev w) : Ok dev P inv (OutOk dev) (mainLoop dev) w := by
  unfold mainLoop
  rw [call_then]
  refine ok_first h rfl rfl fun r u hcu => ?_
  cases r
  case true => exact ok_driveOnce known _ hcu
  simp only [call_then]
  refine ok_plain rfl hcu rfl fun r v hv hcl => ?_
  have hcv : Calm v.log := calm_of_trail hv hcl
  rcases r with e | _ | ⟨file, files⟩
  · exact ok_claimNext known hcv
  · exact ok_claimNext known hcv
  · exact ok_flush known hcv

include known in
theorem ok_resume {out : Out} {p : Prog Out} (h : OutOk dev out w) (hp : resume dev out = some p) :
    Ok dev P inv (OutOk dev) p w := by
  have hflush : Settled dev w → Ok dev P inv (OutOk dev) (flush dev) w := fun h => by
    unfold flush flushOutbox
    simp only [call_then, Program.call_bind]
    refine ok_first h rfl rfl fun r u hcu => ?_
    rcases r with e | files
    · exact .calm hcu
    · exact Safe.bind (ok_flushRecords known files hcu) fun _ _ h => .calm h
  rcases out with ⟨first, ⟨driven⟩ | ⟨error⟩ | ⟨l⟩⟩ | _ | _
  · cases first <;> cases hp
    · exact ok_mainLoop known h
    · exact hflush h
  · cases hp
  · cases hp
    exact Safe.bind (ok_waitRound h) fun _ _ h => h
  · cases hp
    exact ok_mainLoop known h
  · cases hp
    exact ok_mainLoop known h

end

/-! ### whole runs -/

section

variable {dev : Device} {P : Policy World Call Reply Project}

theorem known_serve {w t : World} {e : Call} {x : Reply} {r : Answer e} (h : Known w)
    (hs : serve dev w e x = some (r, t)) : Known t := by
  obtain ⟨-, rfl⟩ := serve_inv hs
  intro a ha
  cases e with
  | saveActive b =>
    simp only [effect] at ha ⊢
    split_ifs at ha ⊢
    · cases ha
      exact .head _
    · exact h a ha
  | removeActive =>
    simp only [effect] at ha ⊢
    split_ifs at ha ⊢
    · cases ha
    · exact h a ha
  | lock => cases x <;> exact h a ha
  | saveOutbox | removeOutbox | saveHistory =>
    simp only [effect] at ha ⊢
    split_ifs at ha ⊢ <;> exact h a ha
  | _ => exact h a ha

theorem known_project {w t : World} {x : Project} (h : Known w) (hx : project dev w x = some t) :
    Known t := by
  obtain ⟨-, -, -, hu, -, ha⟩ := project_frame hx
  intro a hta
  rw [hu]
  rcases ha with ha | ha
  · exact h a (ha ▸ hta)
  · rw [ha] at hta
    cases hta

theorem turnOk_frame {turn : Turn} {w t : World} (h : TurnOk dev turn w) (hf : Frame w t) :
    TurnOk dev turn t := by
  cases turn with
  | ok driven => exact Settled.frame h hf
  | failed error => trivial
  | waiting l =>
    refine { h with sound := h.sound.frame hf, known := ?_, settled := ?_ }
    · rw [show t.used = w.used from congrArg Trail.used hf.trail]
      exact h.known
    · rw [show t.log = w.log from congrArg Trail.log hf.trail]
      exact h.settled

theorem outOk_frame {out : Out} {w t : World} (h : OutOk dev out w) (hf : Frame w t) :
    OutOk dev out t := by
  rcases out with ⟨first, turn⟩ | _ | _
  · exact turnOk_frame h hf
  · exact Settled.frame h hf
  · exact Settled.frame h hf

/-- What holds of every run of the daemon: the steps are the calls with what they need, the stops
and the project command. -/
structure Invariant (dev : Device) (P : Policy World Call Reply Project) (Init I : World → Prop) :
    Prop where
  init : ∀ w, Init w → I w
  reply : ∀ w e x r t, I w → Known w → Needs dev w e → P.reply w e x →
    serve dev w e x = some (r, t) → I t
  lose : ∀ w e, I w → Known w → Needs dev w e → P.lose w e → I ((surroundings dev).lose w e)
  stop : ∀ w, I w → I ((surroundings dev).stop w)
  project : ∀ w x t, I w → P.surround w x → project dev w x = some t → I t

/-- The daemon starts from a directory whose attempt is known and with a log of its own. -/
def Starts (Init : World → Prop) : Prop := ∀ w, Init w → Known w ∧ w.log = []

/-- **The rule for the daemon.** -/
theorem daemon_inv {Init I : World → Prop} (hstart : Starts Init) (hI : Invariant dev P Init I)
    {s : Machine.State World Call Answer Out} (hs : ((daemon dev Init).under P).Reachable s) :
    I s.store ∧ Known s.store ∧ ∀ e k, s.proc = some (.call e k) → Needs dev s.store e := by
  have known : ∀ w, I w ∧ Known w → Known w := fun w h => h.2
  have hstop : ∀ w : World, Known w → Known ((surroundings dev).stop w) := fun w h => h
  have hrel : (daemon dev Init).Stable P fun w => Calm w.log := fun w x t h _ hx => by
    obtain ⟨-, -, -, -, hg, -⟩ := project_frame (show project dev w x = some t from hx)
    exact hg ▸ h
  obtain ⟨⟨h1, h2⟩, -, h3⟩ := Machine.reachable_safe (M := daemon dev Init)
    (C := ⟨P, fun w => I w ∧ Known w, Needs dev⟩) (Q := OutOk dev)
    { init := fun w h => ⟨hI.init w h, (hstart w h).1⟩
      reply := fun w e x r t h hn hp hx => ⟨hI.reply w e x r t h.1 h.2 hn hp hx, known_serve h.2 hx⟩
      lose := fun w e h hn hp => ⟨hI.stop _ (hI.lose w e h.1 h.2 hn hp), hstop _ h.2⟩
      stop := fun w h _ => ⟨hI.stop w h.1, hstop w h.2⟩
      surround := fun w x t h hp hx => ⟨hI.project w x t h.1 hp hx, known_project h.2 hx⟩ }
    (fun out w x t h _ hx => outOk_frame h (.of_project hx)) hrel
    (fun w h => by
      rw [(hstart w h).2]
      exact calm_nil)
    (fun w => calm_stopped w.log)
    (fun w _ hc => ok_startup known hc)
    (fun out w p _ h hp => ok_resume known h hp)
    (fun out w h _ _ => ⟨hI.stop w h.1, hstop w h.2⟩) hs
  refine ⟨h1, h2, fun e k hp => ?_⟩
  exact ((h3 _ hp) s.store .refl ⟨h1, h2⟩).1

end

end Ceo.Attempt
