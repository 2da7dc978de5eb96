import Ceo.Attempt.Evidence

/-!
# Saved records pass their checks

A record that does not pass its checks is not written, and the pass that tried
ends with an error. Two phases of the source are entered with less than the
next one asks for: `Started`, which is not checked for a terminal, and
`RecoveryRequired`, which is checked for nothing. `Equipped` says what is
missing there; from any other record a pass saves only what can be loaded.
-/

namespace Ceo.Attempt

open Ceo.Lib Ceo.Jobs
open Ceo.Connector (Phase)

/-- The executor state names the worktree, the terminal and the agent. -/
def AttemptExecutorState.isIdentified (exec : AttemptExecutorState) : Bool :=
  exec.worktreeId.isSome && exec.terminalId.isSome && exec.agentId.isSome

/-- The completion kinds that are recorded with a request id only. -/
def dispatchedKinds : List String := ["tui_idle", "timed_out", "interrupted"]

/-- The executor state has what its completion kind asks for. -/
def AttemptExecutorState.Carries (exec : AttemptExecutorState) : Prop :=
  (exec.runtimeCompletionKind = some "not_started" ∨ exec.isIdentified = true) ∧
    ∀ k, exec.runtimeCompletionKind = some k → k ∈ dispatchedKinds →
      exec.dispatchRequestId.isSome = true

/-- The record has what the phase after `Started` or `RecoveryRequired` asks for. -/
structure Equipped (host : Host) (c : ActiveAttempt) : Prop where
  started : c.phase = .started →
    ∃ exec, c.executor = some exec ∧ exec.isIdentified = true ∧ exec.dispatchRequestId.isSome = true
  payload : c.phase = .recoveryRequired → Guard.All (ActiveAttempt.payloadGuards host c)
  /-- An outcome that recovery makes up is not `not_started` after a dispatch, or where there may
  be a result. -/
  unrecorded : c.phase = .recoveryRequired → c.exec.runtimeCompletionKind = none →
    c.exec.dispatchRequestId.isSome = true ∨ isResource c = true → c.exec.isIdentified = true
  recorded : c.phase = .recoveryRequired → ∀ k, c.exec.runtimeCompletionKind = some k →
    k ≠ "not_started" → c.exec.isIdentified = true ∧
      (k ∈ dispatchedKinds → c.exec.dispatchRequestId.isSome = true)

/-! ### the checks, phase by phase -/

section

variable {host : Host} {a c : ActiveAttempt} {exec : AttemptExecutorState}

/-- What `Waiting` asks of the executor state. -/
theorem all_waiting (hp : a.phase = .waiting) (hx : a.executor = some exec) :
    Guard.All (ActiveAttempt.preparedGuards a) ↔
      exec.isIdentified = true ∧ exec.dispatchRequestId.isSome = true := by
  unfold ActiveAttempt.preparedGuards AttemptExecutorState.isIdentified
  simp [hp, hx, and_assoc]

theorem all_dispatched (hp : a.phase = .dispatched) (hx : a.executor = some exec) :
    Guard.All (ActiveAttempt.preparedGuards a) ↔
      exec.isIdentified = true ∧ exec.dispatchRequestId.isSome = true := by
  unfold ActiveAttempt.preparedGuards AttemptExecutorState.isIdentified
  simp [hp, hx, and_assoc]

/-- The phases from `Prepared` to the send ask for the terminal. -/
theorem all_prepared (hp : a.phase = .prepared ∨ a.phase = .dispatchIntent)
    (hx : a.executor = some exec) :
    Guard.All (ActiveAttempt.preparedGuards a) ↔ exec.isIdentified = true := by
  unfold ActiveAttempt.preparedGuards AttemptExecutorState.isIdentified
  rcases hp with hp | hp <;> simp [hp, hx, and_assoc]

/-- What a recorded outcome asks for depends on its kind. -/
theorem all_outcome (hp : a.phase = .outcomeRecorded) (hx : a.executor = some exec) :
    Guard.All (ActiveAttempt.preparedGuards a) ↔ exec.Carries := by
  unfold ActiveAttempt.preparedGuards AttemptExecutorState.Carries
    AttemptExecutorState.isIdentified
  by_cases hn : exec.runtimeCompletionKind = some "not_started"
  · simp [hp, hx, hn, dispatchedKinds]
  · cases hk : exec.runtimeCompletionKind with
    | none => simp [hp, hx, hk, and_assoc]
    | some k =>
      have : ¬ k = "not_started" := fun h => hn (h ▸ hk)
      by_cases hm : k = "tui_idle" ∨ k = "timed_out" ∨ k = "interrupted"
      · simp [hp, hx, hk, this, hm, dispatchedKinds, and_assoc, or_assoc]
      · simp [hp, hx, hk, this, hm, dispatchedKinds, and_assoc, or_assoc]

/-- Before `Prepared` the payload is enough. -/
theorem phaseGuards_early (hpay : Guard.All (ActiveAttempt.payloadGuards host a))
    (hp : hasPayload a.phase = true) (hn : ActiveAttempt.isPrepared a.phase = false) :
    Guard.All (ActiveAttempt.phaseGuards host a) := by
  rw [phaseGuards_payload hp, Guard.all_append]
  simpa [hn] using hpay

/-- From `Prepared` on it is the payload and the executor state. -/
theorem phaseGuards_late (hpay : Guard.All (ActiveAttempt.payloadGuards host a))
    (hp : ActiveAttempt.isPrepared a.phase = true)
    (hx : Guard.All (ActiveAttempt.preparedGuards a)) :
    Guard.All (ActiveAttempt.phaseGuards host a) := by
  rw [phaseGuards_payload (hasPayload_of_isPrepared hp), Guard.all_append]
  simpa [hp] using ⟨hpay, hx⟩

/-- The checks of a record with an executor state whose outcome is recorded. -/
theorem valid_outcome (hp : a.phase = .outcomeRecorded) (hx : a.executor = some exec) :
    a.Valid host ↔ Guard.All (ActiveAttempt.identityGuards host a) ∧
      Guard.All (ActiveAttempt.payloadGuards host a) ∧ exec.Carries := by
  unfold ActiveAttempt.Valid
  rw [phaseGuards_payload (by rw [hp]; rfl)]
  simp [hp, ActiveAttempt.isPrepared, all_outcome hp hx]

end

section

variable {dev : Device} {w : World} {c a : ActiveAttempt}

/-! ### edits of a valid record -/

/-- No edit touches what the identity is checked for. -/
theorem Edit.identityGuards (h : Edit dev w c a) :
    ActiveAttempt.identityGuards dev.toHost a = ActiveAttempt.identityGuards dev.toHost c := by
  cases h <;> try rfl
  case unprepared hp i => cases i <;> rfl
  case ready hp prep b target hl ha =>
    unfold ActiveAttempt.ready
    cases prep.dispatch <;> rfl

/-- No edit but the claim touches the payload. -/
theorem Edit.payloadGuards (h : Edit dev w c a) (hc : c.phase ≠ .claimIntent) :
    ActiveAttempt.payloadGuards dev.toHost a = ActiveAttempt.payloadGuards dev.toHost c := by
  cases h <;> try rfl
  case claim hp job at_ hj => exact absurd hp hc
  case unprepared hp i => cases i <;> rfl
  case ready hp prep b target hl ha =>
    unfold ActiveAttempt.ready
    cases prep.dispatch <;> rfl

/-- The payload of the claimed job is the one its digest was taken of. -/
theorem payloadGuards_claimed {job : ClaimedJobWire} {claimedAtMs : Int}
    (hj : job.jobId = c.jobId ∧ job.workspaceId = c.workspaceId ∧ job.targetId = c.targetId) :
    Guard.All (ActiveAttempt.payloadGuards dev.toHost (c.claimed dev job claimedAtMs)) := by
  have hpay : (c.claimed dev job claimedAtMs).payload = job.payload := by
    simp [ActiveAttempt.payload, ActiveAttempt.claimed, ClaimedJobWire.payload, hj]
  unfold ActiveAttempt.payloadGuards
  rw [hpay]
  simp [ActiveAttempt.claimed]

theorem executor_mapExecutor {exec : AttemptExecutorState} (hx : c.executor = some exec)
    (f : AttemptExecutorState → AttemptExecutorState) :
    (c.mapExecutor f).executor = some (f exec) := by
  simp [ActiveAttempt.mapExecutor, hx]

/-- The steps of the phases before `Prepared`, and those that leave them. -/
theorem Advances.phaseGuards {ph : Phase} (h : Advances c ph) (hc : c.Valid dev.toHost)
    (he : Equipped dev.toHost c) :
    Guard.All (ActiveAttempt.phaseGuards dev.toHost (c.inPhase ph)) := by
  have hpay : hasPayload c.phase = true → Guard.All (ActiveAttempt.payloadGuards dev.toHost
    (c.inPhase ph)) := payload_of_valid hc
  cases h with
  | prepare hp | sent hp | started hp => exact phaseGuards_early (hpay (by rw [hp]; rfl)) rfl rfl
  | dispatchedBefore hp hd =>
    refine phaseGuards_early (hpay ?_) rfl rfl
    rcases hp with hp | hp <;> (rw [hp]; rfl)
  | wait hp =>
    obtain ⟨exec, hx, hi⟩ := he.started hp
    exact phaseGuards_late (hpay (by rw [hp]; rfl)) rfl
      ((all_waiting (a := c.inPhase .waiting) rfl hx).2 hi)

/-- An outcome that was never started needs nothing. -/
theorem carries_not_started {exec : AttemptExecutorState}
    (hk : exec.runtimeCompletionKind = some "not_started") : exec.Carries := by
  refine ⟨.inl hk, fun k hk' hm => ?_⟩
  rw [hk] at hk'
  cases hk'
  simp [dispatchedKinds] at hm

/-- What recovery makes of an attempt that has what it takes. -/
theorem carries_recoverRunning (he : Equipped dev.toHost c) (hp : c.phase = .recoveryRequired)
    {captured : Bool} (hcap : captured = true → isResource c = true) (now : Int) :
    (recoverRunning c.exec captured now).Carries := by
  unfold recoverRunning
  split_ifs with hk hc hr
  · obtain ⟨k, hk⟩ := Option.isSome_iff_exists.1 hk
    by_cases hn : k = "not_started"
    · exact carries_not_started (hn ▸ hk)
    · obtain ⟨hi, hd⟩ := he.recorded hp k hk hn
      refine ⟨.inr hi, fun k' hk' hm => hd ?_⟩
      rw [hk] at hk'
      cases hk'
      exact hm
  · refine ⟨.inr (he.unrecorded hp (by simpa using hk) (.inr (hcap hc))), fun k hk' hm => ?_⟩
    cases hk'
    simp [dispatchedKinds] at hm
  · exact ⟨.inr (he.unrecorded hp (by simpa using hk) (.inl hr)), fun _ _ _ => hr⟩
  · exact carries_not_started rfl

/-- **An edit of a record that has what it takes can be saved.** -/
theorem Edit.valid (h : Edit dev w c a) (hc : c.Valid dev.toHost) (he : Equipped dev.toHost c) :
    a.Valid dev.toHost := by
  refine ⟨h.identityGuards ▸ hc.1, ?_⟩
  have hpay : hasPayload c.phase = true → Guard.All (ActiveAttempt.payloadGuards dev.toHost a) :=
    fun hp => h.payloadGuards (fun h => by rw [h] at hp; cases hp) ▸ payload_of_valid hc hp
  cases h with
  | claim hp job at_ hj =>
    exact phaseGuards_early (@payloadGuards_claimed dev c job at_ hj) rfl rfl
  | advance hA => exact hA.phaseGuards hc he
  | recover | late | unprepared => exact Guard.all_nil
  | clock hp now t | identify hp i =>
    refine phaseGuards_early (hpay (by rw [hp]; rfl)) ?_ ?_
    all_goals
      show _ = _
      first | exact congrArg hasPayload hp | exact congrArg ActiveAttempt.isPrepared hp
  | ready hp prep b target hl ha =>
    have hpc := hpay (by rw [hp]; rfl)
    revert hpc
    unfold ActiveAttempt.ready
    cases prep.dispatch with
    | none => exact fun hpc => phaseGuards_late hpc rfl ((all_prepared (.inl rfl) rfl).2 rfl)
    | some evidence => exact fun hpc => phaseGuards_early hpc rfl rfl
  | notReady hp i reason now b target hl ha =>
    refine phaseGuards_late (hpay (by rw [hp]; rfl)) rfl ?_
    exact (all_outcome rfl rfl).2 (carries_not_started rfl)
  | intend hp now t =>
    obtain ⟨exec, hx, hg⟩ := executor_of_valid hc (by rw [hp]; rfl)
    refine phaseGuards_late (hpay (by rw [hp]; rfl)) rfl ?_
    refine Iff.mpr (all_prepared (.inr rfl) (executor_mapExecutor hx _)) ?_
    exact (all_prepared (.inl hp) hx).1 hg
  | count hp | reject hp | doubt hp =>
    obtain ⟨exec, hx, hg⟩ := executor_of_valid hc (by rw [hp]; rfl)
    refine phaseGuards_late (hpay (by rw [hp]; rfl)) (congrArg ActiveAttempt.isPrepared hp) ?_
    refine Iff.mpr (all_prepared (.inr hp) (executor_mapExecutor hx _)) ?_
    exact (all_prepared (.inr hp) hx).1 hg
  | accept hp | reconcile hp =>
    obtain ⟨exec, hx, hg⟩ := executor_of_valid hc (by rw [hp]; rfl)
    refine phaseGuards_late (hpay (by rw [hp]; rfl)) rfl ?_
    refine Iff.mpr (all_dispatched rfl (executor_mapExecutor hx _)) ⟨?_, rfl⟩
    exact (all_prepared (.inr hp) hx).1 hg
  | exhaust hp now ho hn tid hl =>
    obtain ⟨exec, hx, hg⟩ := executor_of_valid hc (by rw [hp]; rfl)
    refine phaseGuards_late (hpay (by rw [hp]; rfl)) rfl ?_
    exact Iff.mpr (all_outcome rfl (executor_mapExecutor hx _)) (carries_not_started rfl)
  | working hp | seen hp =>
    obtain ⟨exec, hx, hg⟩ := executor_of_valid hc (by rw [hp]; rfl)
    refine phaseGuards_late (hpay (by rw [hp]; rfl)) (congrArg ActiveAttempt.isPrepared hp) ?_
    refine Iff.mpr (all_waiting hp (executor_mapExecutor hx _)) ?_
    exact (all_waiting hp hx).1 hg
  | complete hp kind now err hC =>
    obtain ⟨exec, hx, hg⟩ := executor_of_valid hc (by rw [hp]; rfl)
    obtain ⟨hi, hr⟩ := (all_waiting hp hx).1 hg
    refine phaseGuards_late (hpay (by rw [hp]; rfl)) rfl ?_
    exact Iff.mpr (all_outcome rfl (executor_mapExecutor hx _)) ⟨.inr hi, fun _ _ _ => hr⟩
  | finalize hp o ho =>
    show Guard.All [_, _]
    simp [ActiveAttempt.finalized, Device.computeReportSha256, dev.sha256_hex]
  | terminalize hp detail captured now hcap hl hd =>
    refine phaseGuards_late (he.payload hp) rfl ((all_outcome rfl rfl).2 ?_)
    show AttemptExecutorState.Carries (if serverRunning detail then _ else _)
    split_ifs
    · exact carries_recoverRunning he hp hcap now
    · exact carries_not_started rfl

end

/-! ### passes over a given record -/

section

variable {dev : Device} {Init : World → Prop} {w t : World} {c : ActiveAttempt}

/-- The daemon comes to run `p` over `w`. -/
def Runs (dev : Device) (Init : World → Prop) (w : World) (p : Prog Out) : Prop :=
  (daemon dev Init).system.Reachable ⟨w, some p⟩

theorem Runs.boot (h : Init w) : Runs dev Init w (startup dev) := by
  have h0 : (daemon dev Init).system.Reachable ⟨w, none⟩ := .init ⟨h, rfl⟩
  exact h0.step (a := .boot) rfl

theorem Runs.reply {e : Call} {k : Answer e → Prog Out} (h : Runs dev Init w (.call e k))
    (x : Reply) {r : Answer e} (hr : answer dev w e x = some r) :
    Runs dev Init ((effect dev w e x).record e r) (k r) := by
  refine LTS.Reachable.step h (a := .reply x) ?_
  show Option.map _ (serve dev w e x) = _
  unfold serve
  rw [hr]
  rfl

theorem Runs.load {k : Except String (Option ActiveAttempt) → Prog Out}
    (h : Runs dev Init w (.call .loadActive k)) (hc : Holds dev w c) :
    Runs dev Init (w.record .loadActive (.ok (some c))) (k (.ok (some c))) :=
  h.reply .ok (congrArg some hc)

/-- The pass over an attempt of this device. -/
theorem Runs.drives (hi : Init w) (hc : Holds dev w c) (hl : w.locked = false)
    (hd : c.deviceId = dev.deviceId) (ho : c.serverOrigin = dev.serverOrigin) :
    ∃ w', Holds dev w' c ∧ w'.locked = false ∧
      Runs dev Init w' (drivePhase dev c >>= fun turn => .done (.drove true turn)) := by
  have h0 : Runs dev Init w (startup dev) := .boot hi
  have hsome : w.active.isSome = true := Option.isSome_iff_ne_none.2 hc.active
  have h1 : Runs dev Init _ (driveOnce dev true) := h0.reply .ok (congrArg some hsome)
  have h2 := h1.load (c := c) hc
  simp only [Program.bind, hd, ho, ne_eq, not_true_eq_false, or_self, if_false] at h2
  exact ⟨(w.record .activeExists true).record .loadActive (.ok (some c)), hc, hl, h2⟩

/-- The record under the lock, and the save of a block. -/
theorem Runs.saves {f : Turn → Prog Out} {g : ActiveAttempt → Prog Turn}
    (h : Runs dev Init w (withCurrent id c g >>= f)) (hc : Holds dev w c) (hl : w.locked = false) :
    ∃ w', Holds dev w' c ∧ Runs dev Init w' ((do
      let a ← g c
      call .unlock
      return a) >>= f) := by
  have h1 := Runs.reply h .ok (r := true) (by
    show (if w.locked then none else some true) = some true
    simp [hl])
  have h2 := Runs.load h1 (c := c) hc
  simp only [Program.bind, if_true] at h2
  refine ⟨_, ?_, h2⟩
  exact hc

/-- A pass over `c` that is about to save `a`. -/
def Saves (dev : Device) (Init : World → Prop) (c a : ActiveAttempt) : Prop :=
  ∃ w k, Runs dev Init w (.call (.saveActive a) k) ∧ Holds dev w c

theorem Runs.advances {ph : Phase}
    (h : Runs dev Init w (drivePhase dev c >>= fun turn => .done (.drove true turn)))
    (hc : Holds dev w c) (hl : w.locked = false) (hp : drivePhase dev c = advanceTo ph c) :
    Saves dev Init c (c.inPhase ph) := by
  rw [hp] at h
  obtain ⟨w', hc', h'⟩ := h.saves hc hl
  exact ⟨w', _, h', hc'⟩

/-- A coordinator that still has the attempt as running. -/
def runningDetail (attemptId : String) : JobDetail := ⟨"running", none, some ⟨attemptId, "running", none⟩⟩

theorem Runs.terminalizes
    (h : Runs dev Init w (drivePhase dev c >>= fun turn => .done (.drove true turn)))
    (hc : Holds dev w c) (hl : w.locked = false) (hp : c.phase = .recoveryRequired)
    (hd : c.deviceId = dev.deviceId) (ho : c.serverOrigin = dev.serverOrigin) :
    Saves dev Init c ((c.insertExecutor (recoverRunning · (isResource c) 0)).inPhase
      .outcomeRecorded) := by
  have hdrive : drivePhase dev c = driveRecoveryRequired dev c := by
    unfold drivePhase
    rw [hp]
  rw [hdrive] at h
  have h1 := Runs.load h (c := c) hc
  simp only [Program.bind, hd, ho, ne_eq, not_true_eq_false, or_self, if_false] at h1
  have h2 := Runs.reply h1 (.detail (.error .unauthorized)) rfl
  simp only [Program.bind] at h2
  have h3 := Runs.reply h2 (.detail (.ok (runningDetail c.attemptId))) rfl
  have hne : (runningDetail c.attemptId).state ≠ "terminal" ∧
      (runningDetail c.attemptId).execution.map (·.attemptId) = some c.attemptId := by
    refine ⟨?_, rfl⟩
    show "running" ≠ "terminal"
    decide
  simp only [Program.bind, if_pos hne] at h3
  obtain ⟨w', hc', h4⟩ := Runs.saves h3 hc hl
  have hrun : serverRunning (runningDetail c.attemptId) = true := rfl
  cases hr : isResource c with
  | false =>
    simp only [hasCapturedResult, hr, Bool.false_eq_true, if_false] at h4
    have h5 := Runs.reply h4 (.time 0) rfl
    simp only [hrun, if_true] at h5
    exact ⟨_, _, h5, hc'⟩
  | true =>
    simp only [hasCapturedResult, hr, if_true] at h4
    have h5 := Runs.reply h4 .ok (r := true) rfl
    have h6 := Runs.reply h5 (.time 0) rfl
    simp only [hrun, if_true] at h6
    exact ⟨_, _, h6, hc'⟩

/-! ### every save -/

/-- The file is empty or has a record that loads. -/
def Loads (dev : Device) (w : World) : Prop := w.active = none ∨ ∃ c, Holds dev w c

theorem loads_invariant {P : Policy World Call Reply Project}
    (hinit : ∀ w, Init w → Loads dev w) : Invariant dev P Init (Loads dev) where
  init := hinit
  reply w e x r t h _ hn _ hs := by
    obtain ⟨-, rfl⟩ := serve_inv hs
    rcases active_effect dev w e x with ha | ha | ⟨a, rfl, hv, ha⟩
    · rcases h with h | ⟨c, h⟩
      · exact .inl (ha.trans h)
      · exact .inr ⟨c, (holds_of_active ha).2 h⟩
    · exact .inl ha
    · refine .inr ⟨a, holds_of_saved ha (ActiveAttempt.validate_ok_iff.1 hv) ?_⟩
      rcases hn.demand.2 with ⟨c, hc, -, he⟩ | ⟨-, hf, -⟩
      · exact he.not_legacy hc.valid.2
      · exact fresh_not_legacy hf
  lose w e h _ _ _ := h
  stop w h := h
  project w x t h _ hx := by
    obtain ⟨-, -, -, -, -, ha⟩ := project_frame hx
    rcases ha with ha | ha
    · rcases h with h | ⟨c, h⟩
      · exact .inl (ha.trans h)
      · exact .inr ⟨c, (holds_of_active ha).2 h⟩
    · exact .inl ha

/-- What is said of the saves of a pass over `c`: they pass their checks, and what is on disk loads. -/
def SavesLoadable (dev : Device) (c : ActiveAttempt) : Prop :=
  ∀ Init s, Starts Init → (∀ w, Init w → Loads dev w) → (daemon dev Init).system.Reachable s →
    Loads dev s.store ∧ ∀ a k, s.proc = some (.call (.saveActive a) k) → Holds dev s.store c →
      a.validate dev.toHost = .ok ()

theorem saves_of_equipped (he : Equipped dev.toHost c) : SavesLoadable dev c := by
  intro Init s hstart hload hs
  obtain ⟨hl, -, hn⟩ := daemon_inv hstart (loads_invariant (P := .any) hload)
    (Machine.reachable_any hs)
  refine ⟨hl, fun a k hk hc => ?_⟩
  rcases (hn _ _ hk).demand.2 with ⟨c', hc', -, hE⟩ | ⟨hnone, -⟩
  · obtain rfl := hc.unique hc'
    exact ActiveAttempt.validate_ok_iff.2 (hE.valid hc.valid.1 he)
  · exact absurd hnone hc.active

/-- The directory with the attempt alone. -/
theorem SavesLoadable.saves (h : SavesLoadable dev c) (hv : c.Valid dev.toHost)
    (hp : c.phase ≠ .legacyRunning) {a : ActiveAttempt}
    (hs : Saves dev (· = Sample.directory c) c a) : a.Valid dev.toHost := by
  obtain ⟨w, k, hr, hc⟩ := hs
  refine ActiveAttempt.validate_ok_iff.1 ((h _ _ (Sample.starts_directory c) ?_ hr).2 a k rfl hc)
  rintro w rfl
  exact .inr ⟨c, holds_of_saved rfl hv hp⟩

/-- **The saves of the passes over a record pass their checks exactly if it has what the next phase
asks for.** -/
theorem saves_loadable_iff (hv : c.Valid dev.toHost) (hd : c.deviceId = dev.deviceId)
    (ho : c.serverOrigin = dev.serverOrigin) : SavesLoadable dev c ↔ Equipped dev.toHost c := by
  refine ⟨fun h => ?_, saves_of_equipped⟩
  have hdrive : c.phase ≠ .legacyRunning → ∃ w, Holds dev w c ∧ w.locked = false ∧
      Runs dev (· = Sample.directory c) w
        (drivePhase dev c >>= fun turn => .done (.drove true turn)) := fun hp =>
    Runs.drives rfl (holds_of_saved rfl hv hp) rfl hd ho
  have hout : c.phase = .recoveryRequired → Guard.All (ActiveAttempt.payloadGuards dev.toHost c) ∧
      (recoverRunning c.exec (isResource c) 0).Carries := fun hp => by
    obtain ⟨w, hc, hl, hr⟩ := hdrive (by simp [hp])
    have hs := h.saves hv (by simp [hp]) (hr.terminalizes hc hl hp hd ho)
    exact ((valid_outcome rfl rfl).1 hs).2
  refine ⟨fun hp => ?_, fun hp => (hout hp).1, fun hp hk hr => ?_, fun hp k hk hn => ?_⟩
  · obtain ⟨w, hc, hl, hr⟩ := hdrive (by simp [hp])
    have hs := h.saves hv (by simp [hp]) (@Runs.advances dev _ w _ .waiting hr hc hl (by
      unfold drivePhase
      rw [hp]))
    obtain ⟨exec, hx, hg⟩ := executor_of_valid hs rfl
    exact ⟨exec, hx, (all_waiting rfl hx).1 hg⟩
  · have hC := (hout hp).2.1
    unfold recoverRunning at hC
    split_ifs at hC with h1 h2 h3
    · simp [hk] at h1
    · exact hC.resolve_left (by simp [AttemptExecutorState.complete])
    · exact hC.resolve_left (by simp [AttemptExecutorState.complete])
    · rcases hr with hr | hr
      · exact absurd hr h3
      · exact absurd hr h2
  · have hC := (hout hp).2
    unfold recoverRunning at hC
    rw [if_pos (by simp [hk])] at hC
    refine ⟨hC.1.resolve_left (by simp [hk, hn]), fun hm => hC.2 k hk hm⟩

end

theorem valid_of_isOk {host : Host} {a : ActiveAttempt} (h : (a.validate host).isOk = true) :
    a.Valid host := by
  cases hv : a.validate host with
  | error e => simp [hv, Except.isOk, Except.toBool] at h
  | ok => exact ActiveAttempt.validate_ok_iff.1 hv

set_option maxRecDepth 10000 in
/-- A prepared attempt has what it takes. -/
theorem saves_loadable_prepared : SavesLoadable .sample (Sample.prepared "result") :=
  (saves_loadable_iff (valid_of_isOk (by decide +kernel)) rfl rfl).2
    ⟨fun h => (by cases h), fun h => (by cases h), fun h => (by cases h), fun h => by cases h⟩

/-! ### the dispatch of a phase -/

/-- The phases that come after an accepted dispatch. -/
def isDispatched : Phase → Bool
  | .dispatched | .startIntent | .started | .waiting => true
  | _ => false

def ActiveAttempt.withExecutor (a : ActiveAttempt) (executor : Option AttemptExecutorState) :
    ActiveAttempt :=
  { a with executor := executor }

/-- Whatever its executor state, the record is not valid without the id of its dispatch. -/
def PersistsDispatch (host : Host) (a : ActiveAttempt) : Prop :=
  isDispatched a.phase = true → ∀ executor, (a.withExecutor executor).validate host = .ok () →
    (executor.bind (·.dispatchRequestId)).isSome = true

theorem withExecutor_phase (a : ActiveAttempt) (x : Option AttemptExecutorState) :
    (a.withExecutor x).phase = a.phase := rfl

theorem withExecutor_identity (host : Host) (a : ActiveAttempt) (x : Option AttemptExecutorState) :
    ActiveAttempt.identityGuards host (a.withExecutor x) = ActiveAttempt.identityGuards host a := rfl

theorem withExecutor_payload (host : Host) (a : ActiveAttempt) (x : Option AttemptExecutorState) :
    ActiveAttempt.payloadGuards host (a.withExecutor x) = ActiveAttempt.payloadGuards host a := rfl

/-- Outside the prepared phases the executor state is not looked at. -/
theorem valid_withExecutor {host : Host} {a : ActiveAttempt} (hv : a.Valid host)
    (hp : hasPayload a.phase = true) (hn : ActiveAttempt.isPrepared a.phase = false)
    (x : Option AttemptExecutorState) : (a.withExecutor x).validate host = .ok () := by
  refine ActiveAttempt.validate_ok_iff.2 ⟨?_, ?_⟩
  · rw [withExecutor_identity]
    exact hv.1
  · refine phaseGuards_early ?_ hp hn
    rw [withExecutor_payload]
    exact payload_of_valid hv hp

/-- Of the phases after the dispatch, only the two that are among the prepared ones are checked for
its id. -/
theorem persistsDispatch_iff {host : Host} {a : ActiveAttempt} (hv : a.validate host = .ok ()) :
    PersistsDispatch host a ↔ a.phase ≠ .startIntent ∧ a.phase ≠ .started := by
  have valid := ActiveAttempt.validate_ok_iff.1 hv
  constructor
  · intro h
    have unchecked (hp : a.phase = .startIntent ∨ a.phase = .started) : False := by
      have hno := valid_withExecutor valid (by rcases hp with hp | hp <;> rw [hp] <;> rfl)
        (by rcases hp with hp | hp <;> rw [hp] <;> rfl) none
      have := h (by rcases hp with hp | hp <;> rw [hp] <;> rfl) none hno
      cases this
    exact ⟨fun hp => unchecked (.inl hp), fun hp => unchecked (.inr hp)⟩
  · rintro ⟨hintent, hstarted⟩ hd executor hvx
    have hphase : a.phase = .dispatched ∨ a.phase = .waiting := by
      revert hd hintent hstarted
      cases a.phase <;> simp [isDispatched]
    have prepared : ActiveAttempt.isPrepared (a.withExecutor executor).phase = true := by
      rcases hphase with hp | hp <;> rw [withExecutor_phase, hp] <;> rfl
    obtain ⟨exec, hx, hall⟩ := executor_of_valid (ActiveAttempt.validate_ok_iff.1 hvx) prepared
    have hid : exec.dispatchRequestId.isSome = true := by
      rcases hphase with hp | hp
      · exact ((all_dispatched (a := a.withExecutor executor) hp hx).1 hall).2
      · exact ((all_waiting (a := a.withExecutor executor) hp hx).1 hall).2
    rw [show executor = some exec from hx]
    exact hid

namespace Sample

/-- A start intent on disk, from which the dispatch has not been recorded. -/
def startIntent : ActiveAttempt := (prepared "result").inPhase .startIntent

/-- The terminal has accepted the dispatch. -/
def accepted : ActiveAttempt :=
  ((prepared "result").mapExecutor (·.accept "req-1" 3000 true)).inPhase .dispatched

end Sample

set_option maxRecDepth 10000 in
theorem persistsDispatch_accepted : PersistsDispatch (Device.sample).toHost Sample.accepted :=
  (persistsDispatch_iff (ActiveAttempt.validate_ok_iff.2 (valid_of_isOk (by decide +kernel)))).2
    ⟨fun h => (by cases h), fun h => by cases h⟩

set_option maxRecDepth 10000 in
/-- A valid record after the dispatch that has no id of it. -/
theorem startIntent_without_dispatch :
    ¬ ∀ a : ActiveAttempt, a.validate (Device.sample).toHost = .ok () →
      isDispatched a.phase = true → (a.executor.bind (·.dispatchRequestId)).isSome = true := by
  intro h
  have valid : Sample.startIntent.Valid (Device.sample).toHost := valid_of_isOk (by decide +kernel)
  have := h Sample.startIntent (ActiveAttempt.validate_ok_iff.2 valid) rfl
  cases this

/-! ### a claim that conflicts -/

/-- A save that was refused. -/
def Entry.isRefusedSave : Entry → Bool
  | .call (.saveActive _) (some (.error e)) => e != ioError
  | _ => false

namespace Sample

/-- The coordinator has the attempt as claimed. -/
def claimedDetail : JobDetail := ⟨"active", none, some ⟨attemptId, "claimed", none⟩⟩

/-- The daemon is started on an attempt in recovery, which the coordinator does not have as
cancelled. -/
def recovery (detail : JobDetail) : List Step :=
  .boot :: oks 3 ++ .reply (.detail (.ok detail)) :: .reply (.detail (.ok detail)) :: oks 2

end Sample

set_option maxRecDepth 10000 in
/-- A claim that meets an idempotency conflict puts an attempt without a payload into recovery; when
the coordinator then has it as claimed, the outcome that is made up for it is refused. -/
theorem saves_not_loadable :
    ¬ ∀ w, Starts (· = w) → (∀ c, Holds .sample w c → c.Valid (Device.sample).toHost) →
      ∀ s, (daemon .sample (· = w)).system.Reachable s →
        s.store.log.any Entry.isRefusedSave = false := by
  intro h
  obtain ⟨s, hs, hc⟩ := Sample.reachable World.empty
    (Sample.found ++ Sample.oks 1 ++
      .reply (.claim (.error (.jobError "IDEMPOTENCY_CONFLICT" "conflict"))) :: Sample.oks 4 ++
      .resume :: Sample.recovery Sample.claimedDetail ++ .reply (.time 5000) :: Sample.oks 1)
    (fun w => w.log.any Entry.isRefusedSave) (by decide +kernel)
  rw [h World.empty Sample.starts_empty (fun c hc => absurd rfl hc.active) s hs] at hc
  cases hc

end Ceo.Attempt
