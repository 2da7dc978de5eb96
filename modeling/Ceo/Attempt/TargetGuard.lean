import Ceo.Attempt.Dispatch

/-!
# The target-in-use guards

`check_active_attempt_target_in_use` and its server-connected variant
(`targets.rs`, `attempt_convergence.rs`), and two commands that remove a
target behind them (`target_remove`, `project_detach`).
-/

namespace Ceo.Attempt.TargetGuard

/-! ### the marker -/

/-- `serde_json::Value` -/
inductive Value where
  | null
  | bool (b : Bool)
  | u64 (n : Nat)
  | number (literal : String)
  | string (s : String)
  | array (items : List Value)
  | object (fields : List (String × Value))

namespace Value

def get (key : String) : Value → Option Value
  | .object fields => (fields.find? (·.1 == key)).map (·.2)
  | _ => none

def asStr : Value → Option String
  | .string s => some s
  | _ => none

def asU64 : Value → Option Nat
  | .u64 n => some n
  | _ => none

end Value

structure Serde where
  parse : String → Except String Value
  fromValue : Value → Except String ActiveAttempt

/-- `active-attempt.json` as a command finds it. -/
inductive MarkerFile where
  | absent
  /-- `exists` says no: a broken link, or metadata that cannot be read. -/
  | unseen
  /-- Not readable, or not UTF-8. -/
  | unreadable (e : String)
  | content (text : String)
  deriving DecidableEq, Repr

/-- `ActiveAttempt::load` -/
def loadMarker (serde : Serde) (dev : Device) : MarkerFile → Except String (Option ActiveAttempt)
  | .absent | .unseen => .ok none
  | .unreadable e => .error ("IO error: " ++ e)
  | .content text =>
    match serde.parse text with
    | .error e => .error ("JSON error: " ++ e)
    | .ok val =>
      match (val.get "schema_version").bind Value.asU64 with
      | none => .error (ActiveAttempt.corrupt "missing schema_version field")
      | some n =>
        let version := n % 2 ^ 32
        if 4 ≤ version ∧ version ≤ 7 then
          match serde.fromValue val with
          | .error e => .error ("JSON error: " ++ e)
          | .ok att => (att.load dev.toHost).map some
        else .error ("Unsupported schema version: " ++ toString version)

/-! ### the profile -/

structure Profile where
  marker : MarkerFile
  history : List HistoryRecord
  /-- Of `config.json`. -/
  targets : List (String × LocalTarget)
  /-- What the server was asked to unbind. -/
  unbound : List String

inductive FileAnswer where
  | done
  | failed (e : String)
  /-- The change is there; its directory could not be synced. -/
  | unsynced (e : String)

inductive LockAnswer where
  | acquired
  | busy
  | failed (e : String)

/-- What the server and the file system say during one command. -/
structure Answers where
  getJob : String → Except String JobDetail
  finalizeLock : Except String Unit
  now : Int
  saveHistory : FileAnswer
  removeMarker : FileAnswer
  lock : LockAnswer
  unbind : Except String Unit
  saveConfig : FileAnswer

inductive TargetError where
  | targetInUse (targetId : String)
  | targetInUseUnconverged (targetId reason : String)
  | profileBusy
  | io (e : String)
  | client (e : String)
  | config (e : String)
  deriving DecidableEq, Repr

/-! ### the guards -/

section

variable (serde : Serde) (dev : Device) (answers : Answers)

def checkActiveAttemptTargetInUse (marker : MarkerFile) (targetId : String) :
    Except TargetError Unit :=
  match marker with
  | .content text =>
    match serde.parse text with
    | .ok val =>
      match (val.get "target_id").bind Value.asStr with
      | some activeTid =>
        if activeTid = targetId then .error (.targetInUse targetId) else .ok ()
      | none => .ok ()
    | .error _ => .ok ()
  | _ => .ok ()

def finalizeLocalOperatorCancelled (active : ActiveAttempt) (p : Profile) :
    Except String Unit × Profile :=
  match answers.finalizeLock with
  | .error e => (.error ("IO error: " ++ e), p)
  | .ok () =>
    match loadMarker serde dev p.marker with
    | .error e => (.error ("Local active-attempt state error: " ++ e), p)
    | .ok none => (.ok (), p)
    | .ok (some current) =>
      if current.attemptId = active.attemptId then
        let saved := { p with history := p.history ++
          [cancelledHistory dev current.jobId current.attemptId current.targetId answers.now] }
        match answers.saveHistory with
        | .failed e => (.error ("IO error: " ++ e), p)
        | .unsynced e => (.error ("IO error: " ++ e), saved)
        | .done =>
          match answers.removeMarker with
          | .failed e => (.error ("IO error: " ++ e), saved)
          | .unsynced e => (.error ("IO error: " ++ e), { saved with marker := .absent })
          | .done => (.ok (), { saved with marker := .absent })
      else (.ok (), p)

/-- `reconcile_active_attempt_with_server_operator_cancel` -/
def reconcile (p : Profile) : OperatorCancelReconciliation × Profile :=
  match loadMarker serde dev p.marker with
  | .ok none => (.noMarker, p)
  | .error e =>
    (.blocked ("local active-attempt state is corrupt or unreadable (" ++ e ++
      ") (LOCAL_STATE_INVALID)"), p)
  | .ok (some active) =>
    if active.serverOrigin ≠ dev.serverOrigin ∨ active.deviceId ≠ dev.deviceId then
      (.blocked ("local active attempt identity does not match this device's credential " ++
        "(local server '" ++ active.serverOrigin ++ "' / device '" ++ active.deviceId ++
        "', credential server '" ++ dev.serverOrigin ++ "' / device '" ++ dev.deviceId ++ "')"), p)
    else
      match answers.getJob active.jobId with
      | .error e =>
        (.blocked ("server job truth unavailable for job '" ++ active.jobId ++ "' (" ++ e ++ ")"), p)
      | .ok detail =>
        if serverProvesExactOperatorCancelled detail active.attemptId then
          match finalizeLocalOperatorCancelled serde dev answers active p with
          | (.ok (), p) => (.finalized, p)
          | (.error e, p) => (.blocked ("durable operator-cancel finalization failed: " ++ e), p)
        else
          (.blocked ("server does not prove local attempt is terminal CANCELLED (server state '" ++
            detail.state ++ "', execution status '" ++
            detail.executionStatus.getD "<unknown>" ++ "', server attempt '" ++
            ((detail.execution.map (·.attemptId)).getD "<missing>") ++ "', local attempt '" ++
            active.attemptId ++ "')"), p)

def checkActiveAttemptTargetInUseConverged (targetId : String) (p : Profile) :
    Except TargetError Unit × Profile :=
  match checkActiveAttemptTargetInUse serde p.marker targetId with
  | .ok () => (.ok (), p)
  | .error _ =>
    match reconcile serde dev answers p with
    | (.finalized, p) => (checkActiveAttemptTargetInUse serde p.marker targetId, p)
    | (.noMarker, p) => (.ok (), p)
    | (.blocked reason, p) => (.error (.targetInUseUnconverged targetId reason), p)

/-! ### the commands

From the loaded profile and the resolved target on. -/

/-- What both commands do under `state.lock`. -/
def removeLocked (targetId : String) (p : Profile) : Except TargetError Unit × Profile :=
  match answers.lock with
  | .busy => (.error .profileBusy, p)
  | .failed e => (.error (.io e), p)
  | .acquired =>
    match checkActiveAttemptTargetInUse serde p.marker targetId with
    | .error e => (.error e, p)
    | .ok () =>
      let p := { p with unbound := p.unbound ++ [targetId] }
      match answers.unbind with
      | .error e => (.error (.client e), p)
      | .ok () =>
        if p.targets.any (·.1 == targetId) then
          let saved := { p with targets := p.targets.filter (·.1 != targetId) }
          match answers.saveConfig with
          | .done => (.ok (), saved)
          | .failed e => (.error (.config e), p)
          | .unsynced e => (.error (.config e), saved)
        else (.ok (), p)

def targetRemove (targetId : String) (p : Profile) : Except TargetError Unit × Profile :=
  removeLocked serde answers targetId p

def projectDetach (targetId : String) (p : Profile) : Except TargetError Unit × Profile :=
  match checkActiveAttemptTargetInUseConverged serde dev answers targetId p with
  | (.error e, p) => (.error e, p)
  | (.ok (), p) => removeLocked serde answers targetId p

/-! ### failing closed -/

/-- Each guard alone, and each command behind its guards. -/
inductive Command where
  | guard | convergedGuard | targetRemove | projectDetach
  deriving DecidableEq, Repr

def Command.run (targetId : String) : Command → Profile → Except TargetError Unit × Profile
  | .guard, p => (checkActiveAttemptTargetInUse serde p.marker targetId, p)
  | .convergedGuard, p => checkActiveAttemptTargetInUseConverged serde dev answers targetId p
  | .targetRemove, p => TargetGuard.targetRemove serde answers targetId p
  | .projectDetach, p => TargetGuard.projectDetach serde dev answers targetId p

/-- The target that a marker names. -/
def MarkerFile.targetId : MarkerFile → Option String
  | .content text =>
    (serde.parse text).toOption.bind fun val => (val.get "target_id").bind Value.asStr
  | _ => none

/-- The marker's attempt was cancelled by the operator, as the server has it; it is in the history
as cancelled, and the marker is gone. -/
def Finalised (p p' : Profile) : Prop :=
  ∃ active detail, loadMarker serde dev p.marker = .ok (some active) ∧
    answers.getJob active.jobId = .ok detail ∧
    serverProvesExactOperatorCancelled detail active.attemptId = true ∧
    p'.marker = .absent ∧ p'.history = p.history ++
      [cancelledHistory dev active.jobId active.attemptId active.targetId answers.now]

/-- The target may go. -/
def Free (targetId : String) (p p' : Profile) : Prop :=
  p.marker = .absent ∨ (∃ other, p.marker.targetId serde = some other ∧ other ≠ targetId) ∨
    Finalised serde dev answers p p'

/-- Where the target may not go, the command refuses, and marker, configuration and server are as
they were. -/
def FailsClosed (targetId : String) (c : Command) (p : Profile) : Prop :=
  Free serde dev answers targetId p (c.run serde dev answers targetId p).2 ∨
    (∃ e, (c.run serde dev answers targetId p).1 = .error e) ∧
      (c.run serde dev answers targetId p).2.marker = p.marker ∧
      (c.run serde dev answers targetId p).2.targets = p.targets ∧
      (c.run serde dev answers targetId p).2.unbound = p.unbound

end

section guards

variable {serde : Serde} {dev : Device} {answers : Answers} {targetId : String} {p : Profile}

theorem check_eq (marker : MarkerFile) : checkActiveAttemptTargetInUse serde marker targetId =
    if marker.targetId serde = some targetId then .error (.targetInUse targetId) else .ok () := by
  unfold checkActiveAttemptTargetInUse MarkerFile.targetId
  cases marker with
  | absent => rfl
  | unseen => rfl
  | unreadable e => rfl
  | content text =>
    cases hv : serde.parse text with
    | error e => simp [hv, Except.toOption]
    | ok val =>
      cases ht : (val.get "target_id").bind Value.asStr with
      | none => simp [hv, ht, Except.toOption]
      | some activeTid => simp [hv, ht, Except.toOption]

/-- A marker that names a target is there, or cannot be loaded. -/
theorem loadMarker_ne_none (h : p.marker.targetId serde ≠ none) :
    loadMarker serde dev p.marker ≠ .ok none := by
  cases hm : p.marker with
  | absent => simp [hm, MarkerFile.targetId] at h
  | unseen => simp [hm, MarkerFile.targetId] at h
  | unreadable e => simp [loadMarker]
  | content text =>
    unfold loadMarker
    dsimp only
    split
    · simp
    · split
      · simp
      · split
        · split
          · simp
          · next att _ => cases att.load dev.toHost <;> simp [Except.map]
        · simp

/-- A finalisation removes the marker of its attempt, or leaves the marker alone. -/
theorem finalize_spec {active : ActiveAttempt} {detail : JobDetail}
    (load : loadMarker serde dev p.marker = .ok (some active))
    (job : answers.getJob active.jobId = .ok detail)
    (proves : serverProvesExactOperatorCancelled detail active.attemptId = true) :
    ((finalizeLocalOperatorCancelled serde dev answers active p).2.targets = p.targets ∧
      (finalizeLocalOperatorCancelled serde dev answers active p).2.unbound = p.unbound) ∧
    (Finalised serde dev answers p (finalizeLocalOperatorCancelled serde dev answers active p).2 ∨
      (∃ e, (finalizeLocalOperatorCancelled serde dev answers active p).1 = .error e) ∧
        (finalizeLocalOperatorCancelled serde dev answers active p).2.marker = p.marker) := by
  unfold finalizeLocalOperatorCancelled
  cases answers.finalizeLock with
  | error e => exact ⟨⟨rfl, rfl⟩, .inr ⟨⟨_, rfl⟩, rfl⟩⟩
  | ok u =>
    simp only [load, if_true]
    cases answers.saveHistory with
    | failed e => exact ⟨⟨rfl, rfl⟩, .inr ⟨⟨_, rfl⟩, rfl⟩⟩
    | unsynced e => exact ⟨⟨rfl, rfl⟩, .inr ⟨⟨_, rfl⟩, rfl⟩⟩
    | done =>
      cases answers.removeMarker with
      | failed e => exact ⟨⟨rfl, rfl⟩, .inr ⟨⟨_, rfl⟩, rfl⟩⟩
      | unsynced e => exact ⟨⟨rfl, rfl⟩, .inl ⟨active, detail, load, job, proves, rfl, rfl⟩⟩
      | done => exact ⟨⟨rfl, rfl⟩, .inl ⟨active, detail, load, job, proves, rfl, rfl⟩⟩

theorem reconcile_spec (named : p.marker.targetId serde ≠ none) :
    ((reconcile serde dev answers p).2.targets = p.targets ∧
      (reconcile serde dev answers p).2.unbound = p.unbound) ∧
    (Finalised serde dev answers p (reconcile serde dev answers p).2 ∨
      (∃ reason, (reconcile serde dev answers p).1 = .blocked reason) ∧
        (reconcile serde dev answers p).2.marker = p.marker) := by
  have present : loadMarker serde dev p.marker ≠ .ok none := loadMarker_ne_none named
  unfold reconcile
  cases load : loadMarker serde dev p.marker with
  | error e => exact ⟨⟨rfl, rfl⟩, .inr ⟨⟨_, rfl⟩, rfl⟩⟩
  | ok loaded =>
    cases loaded with
    | none => exact absurd load present
    | some active =>
      dsimp only
      split
      · exact ⟨⟨rfl, rfl⟩, .inr ⟨⟨_, rfl⟩, rfl⟩⟩
      · cases job : answers.getJob active.jobId with
        | error e => exact ⟨⟨rfl, rfl⟩, .inr ⟨⟨_, rfl⟩, rfl⟩⟩
        | ok detail =>
          dsimp only
          split
          · next proves =>
            have spec := finalize_spec load job proves
            revert spec
            generalize finalizeLocalOperatorCancelled serde dev answers active p = r
            obtain ⟨r, p'⟩ := r
            rintro ⟨same, final⟩
            cases r with
            | ok u => exact ⟨same, .inl (final.resolve_right fun ⟨⟨e, he⟩, _⟩ => by cases he)⟩
            | error e => exact ⟨same, final.imp_right fun ⟨_, hm⟩ => ⟨⟨_, rfl⟩, hm⟩⟩
          · exact ⟨⟨rfl, rfl⟩, .inr ⟨⟨_, rfl⟩, rfl⟩⟩

theorem converged_spec (named : p.marker.targetId serde = some targetId) :
    ((checkActiveAttemptTargetInUseConverged serde dev answers targetId p).2.targets = p.targets ∧
      (checkActiveAttemptTargetInUseConverged serde dev answers targetId p).2.unbound = p.unbound) ∧
    (Finalised serde dev answers p
        (checkActiveAttemptTargetInUseConverged serde dev answers targetId p).2 ∨
      (∃ e, (checkActiveAttemptTargetInUseConverged serde dev answers targetId p).1 = .error e) ∧
        (checkActiveAttemptTargetInUseConverged serde dev answers targetId p).2.marker =
          p.marker) := by
  have some : p.marker.targetId serde ≠ none := by rw [named]; simp
  have spec := @reconcile_spec serde dev answers p some
  unfold checkActiveAttemptTargetInUseConverged
  rw [check_eq, if_pos named]
  revert spec
  generalize reconcile serde dev answers p = r
  obtain ⟨r, p'⟩ := r
  rintro ⟨same, final⟩
  cases r with
  | finalized => exact ⟨same, .inl (final.resolve_right fun ⟨⟨e, he⟩, _⟩ => by cases he)⟩
  | noMarker => exact ⟨same, .inl (final.resolve_right fun ⟨⟨e, he⟩, _⟩ => by cases he)⟩
  | blocked reason => exact ⟨same, final.imp_right fun ⟨_, hm⟩ => ⟨⟨_, rfl⟩, hm⟩⟩

/-- Behind the guard nothing is asked of the server and nothing written. -/
theorem removeLocked_named (named : p.marker.targetId serde = some targetId) :
    ∃ e, removeLocked serde answers targetId p = (.error e, p) := by
  unfold removeLocked
  cases answers.lock with
  | busy => exact ⟨_, rfl⟩
  | failed e => exact ⟨_, rfl⟩
  | acquired =>
    dsimp only
    rw [check_eq, if_pos named]
    exact ⟨_, rfl⟩

theorem removeLocked_history :
    (removeLocked serde answers targetId p).2.marker = p.marker ∧
      (removeLocked serde answers targetId p).2.history = p.history := by
  unfold removeLocked
  cases answers.lock with
  | busy => exact ⟨rfl, rfl⟩
  | failed e => exact ⟨rfl, rfl⟩
  | acquired =>
    dsimp only
    rw [check_eq]
    by_cases named : p.marker.targetId serde = some targetId
    · rw [if_pos named]
      exact ⟨rfl, rfl⟩
    · rw [if_neg named]
      dsimp only
      cases answers.unbind with
      | error e => exact ⟨rfl, rfl⟩
      | ok u =>
        dsimp only
        split
        · cases answers.saveConfig <;> exact ⟨rfl, rfl⟩
        · exact ⟨rfl, rfl⟩

/-- A marker that names the target keeps every command closed. -/
theorem failsClosed_named (named : p.marker.targetId serde = some targetId) (c : Command) :
    FailsClosed serde dev answers targetId c p := by
  cases c with
  | guard =>
    refine .inr ⟨⟨.targetInUse targetId, ?_⟩, rfl, rfl, rfl⟩
    exact (check_eq p.marker).trans (if_pos named)
  | convergedGuard =>
    obtain ⟨⟨targets, unbound⟩, final | ⟨refused, marker⟩⟩ :=
      @converged_spec serde dev answers targetId p named
    · exact .inl (.inr (.inr final))
    · exact .inr ⟨refused, marker, targets, unbound⟩
  | targetRemove =>
    obtain ⟨e, refused⟩ := @removeLocked_named serde answers targetId p named
    refine .inr ⟨⟨e, congrArg Prod.fst refused⟩, congrArg (·.2.marker) refused,
      congrArg (·.2.targets) refused, congrArg (·.2.unbound) refused⟩
  | projectDetach =>
    have spec := @converged_spec serde dev answers targetId p named
    unfold FailsClosed
    simp only [Command.run]
    unfold projectDetach
    revert spec
    generalize checkActiveAttemptTargetInUseConverged serde dev answers targetId p = r
    obtain ⟨r, p'⟩ := r
    rintro ⟨⟨targets, unbound⟩, final⟩
    cases r with
    | error e =>
      refine final.imp (fun h => .inr (.inr h)) fun h => ⟨⟨e, rfl⟩, h.2, targets, unbound⟩
    | ok u =>
      -- the guard has let it pass, so the attempt was finalised, and the rest keeps that
      obtain ⟨active, detail, load, job, proves, marker, history⟩ :=
        final.resolve_right fun ⟨⟨e, he⟩, _⟩ => by cases he
      obtain ⟨sameMarker, sameHistory⟩ :=
        @removeLocked_history serde answers targetId p'
      exact .inl (.inr (.inr ⟨active, detail, load, job, proves, sameMarker.trans marker,
        sameHistory.trans history⟩))

/-- Every file call and every request succeeds. -/
def calm : Answers where
  getJob _ := .error ""
  finalizeLock := .ok ()
  now := 0
  saveHistory := .done
  removeMarker := .done
  lock := .acquired
  unbind := .ok ()
  saveConfig := .done

theorem removeLocked_unnamed (unnamed : p.marker.targetId serde = none) :
    (removeLocked serde calm targetId p).1 = .ok () := by
  unfold removeLocked calm
  dsimp only
  rw [check_eq, unnamed, if_neg (by simp)]
  dsimp only
  split <;> rfl

/-- Without a target in the marker every command goes through. -/
theorem unnamed_ok (unnamed : p.marker.targetId serde = none) (c : Command) :
    (c.run serde dev calm targetId p).1 = .ok () ∧
      (c.run serde dev calm targetId p).2.marker = p.marker := by
  have check : checkActiveAttemptTargetInUse serde p.marker targetId = .ok () := by
    rw [check_eq, unnamed, if_neg (by simp)]
  have converged : checkActiveAttemptTargetInUseConverged serde dev calm targetId p =
      (.ok (), p) := by
    unfold checkActiveAttemptTargetInUseConverged
    rw [check]
  cases c with
  | guard => exact ⟨check, rfl⟩
  | convergedGuard => exact ⟨congrArg Prod.fst converged, congrArg (·.2.marker) converged⟩
  | targetRemove => exact ⟨removeLocked_unnamed unnamed, removeLocked_history.1⟩
  | projectDetach =>
    simp only [Command.run]
    unfold projectDetach
    rw [converged]
    exact ⟨removeLocked_unnamed unnamed, removeLocked_history.1⟩

end guards

/-- The guards fail closed exactly on no marker and on one whose text has a target in it. -/
theorem target_guard_fails_closed_iff (serde : Serde) (dev : Device) (targetId : String)
    (marker : MarkerFile) (c : Command) :
    (∀ answers p, p.marker = marker → FailsClosed serde dev answers targetId c p) ↔
      marker = .absent ∨ ∃ named, marker.targetId serde = some named := by
  constructor
  · intro closed
    by_contra hno
    rw [not_or, not_exists] at hno
    obtain ⟨present, unnamed⟩ := hno
    have unnamed : marker.targetId serde = none := Option.eq_none_iff_forall_ne_some.2 unnamed
    obtain ⟨passed, same⟩ :=
      @unnamed_ok serde dev targetId ⟨marker, [], [], []⟩ unnamed c
    rcases closed calm ⟨marker, [], [], []⟩ rfl with (h | ⟨other, h, -⟩ | h) | ⟨⟨e, he⟩, -⟩
    · exact present h
    · rw [unnamed] at h
      cases h
    · obtain ⟨-, -, -, -, -, gone, -⟩ := h
      exact present (same.symm.trans gone)
    · rw [passed] at he
      cases he
  · rintro h answers p rfl
    rcases h with h | ⟨named, hn⟩
    · exact .inl (.inl h)
    · by_cases h : named = targetId
      · exact failsClosed_named (h ▸ hn) c
      · exact .inl (.inr (.inl ⟨named, hn, h⟩))

/-- A parser on a text that breaks off. -/
def brokenOff : Serde where
  parse _ := .error "EOF while parsing an object at line 1 column 23"
  fromValue _ := .error "expected struct ActiveAttempt"

def brokenOffProfile : Profile where
  marker := .content "\x7b\"target_id\":\"target-1\""
  history := []
  targets := [("target-1", ⟨"/work/site", none⟩)]
  unbound := []

/-- Half a marker does not keep its target: the server unbinds it and the configuration loses
it. -/
theorem target_guard_passes_broken_marker :
    projectDetach brokenOff .sample calm "target-1" brokenOffProfile =
        (.ok (), { brokenOffProfile with targets := [], unbound := ["target-1"] }) ∧
      ¬FailsClosed brokenOff .sample calm "target-1" .projectDetach brokenOffProfile := by
  have unnamed : brokenOffProfile.marker.targetId brokenOff = none := rfl
  refine ⟨rfl, ?_⟩
  rintro ((h | ⟨other, h, -⟩ | h) | ⟨⟨e, he⟩, -⟩)
  · cases h
  · rw [unnamed] at h
    cases h
  · obtain ⟨-, -, -, -, -, gone, -⟩ := h
    cases gone
  · cases he

end Ceo.Attempt.TargetGuard
