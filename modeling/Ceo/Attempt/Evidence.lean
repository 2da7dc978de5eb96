import Ceo.Attempt.Dispatch

/-!
# Evidence of the agent

The observation flags of an attempt only go up, a completion by `tui_idle` is
recorded only when the agent was never seen, and a completion by `agent_done`
only when a turn had been recorded as started.
-/

namespace Ceo.Attempt

open Ceo.Lib Ceo.Jobs
open Ceo.Connector (Phase)

namespace ActiveAttempt

def isTurnStarted (a : ActiveAttempt) : Bool := a.exec.turnStartedObserved

def completionKind (a : ActiveAttempt) : Option String := a.exec.runtimeCompletionKind

theorem isStructured_exec (a : ActiveAttempt) :
    a.isStructured = a.exec.structuredLifecycleObserved := by
  unfold isStructured exec
  cases a.executor <;> rfl

end ActiveAttempt

/-- The phases an attempt is in until it has a worker. -/
def beforeWorker : Phase → Bool
  | .claimIntent | .claimed | .prepareIntent => true
  | _ => false

/-- An attempt without a worker has not been observed: the flags are recorded from observations
of its agent. -/
def Unobserved (c : ActiveAttempt) : Prop :=
  beforeWorker c.phase = true → c.isTurnStarted = false ∧ c.isStructured = false

def Entry.isStopped : Entry → Bool
  | .stopped => true
  | .call _ _ => false

/-- The calls since the daemon was started. -/
def session (log : List Entry) : List Entry := log.takeWhile fun e => !e.isStopped

/-- The agent of the attempt was seen in this session. -/
def Observed (x : String) (log : List Entry) : Prop :=
  ∃ a tid o, .call (.wait a tid) (some (.ok o)) ∈ session log ∧ a.attemptId = x ∧
    o.isStructured = true

/-! ### what a valid record has -/

section

variable {host : Host} {a c : ActiveAttempt}

/-- The phases a record is checked for its payload in. -/
def hasPayload : Phase → Bool
  | .claimIntent | .recoveryRequired | .legacyRunning | .finalizedLocal => false
  | _ => true

theorem phaseGuards_payload (h : hasPayload a.phase = true) :
    ActiveAttempt.phaseGuards host a = ActiveAttempt.payloadGuards host a ++
      if ActiveAttempt.isPrepared a.phase then ActiveAttempt.preparedGuards a else [] := by
  unfold ActiveAttempt.phaseGuards
  cases hp : a.phase <;> simp_all [hasPayload]

theorem hasPayload_of_isPrepared {ph : Phase} (h : ActiveAttempt.isPrepared ph = true) :
    hasPayload ph = true := by
  cases ph <;> first | rfl | cases h

/-- The payload of a valid record that was claimed. -/
theorem payload_of_valid (hc : c.Valid host) (hp : hasPayload c.phase = true) :
    Guard.All (ActiveAttempt.payloadGuards host c) := by
  have h := hc.2
  rw [phaseGuards_payload hp, Guard.all_append] at h
  exact h.1

/-- The executor state of a valid record from `Prepared` on. -/
theorem executor_of_valid (hc : c.Valid host) (hp : ActiveAttempt.isPrepared c.phase = true) :
    ∃ exec, c.executor = some exec ∧ Guard.All (ActiveAttempt.preparedGuards c) := by
  have h := hc.2
  rw [phaseGuards_payload (hasPayload_of_isPrepared hp), Guard.all_append, if_pos hp] at h
  cases hx : c.executor with
  | none =>
    have := h.2
    simp [ActiveAttempt.preparedGuards, hx] at this
  | some exec => exact ⟨exec, rfl, h.2⟩

end

section

variable {dev : Device} {P : Policy World Call Reply Project} {Init : World → Prop}
  {w : World} {c a : ActiveAttempt}

/-! ### what an edit does to the evidence -/

theorem Edit.beforeWorker (h : Edit dev w c a) (ha : beforeWorker a.phase = true) :
    beforeWorker c.phase = true := by
  cases h
  case advance ph hA => cases hA <;> simp_all [Attempt.beforeWorker, ActiveAttempt.inPhase]
  case ready hp prep b target hl ha => rw [hp]; rfl
  case working | seen | reject | doubt | count => exact ha
  all_goals simp_all [Attempt.beforeWorker, ActiveAttempt.inPhase, ActiveAttempt.finalized]

theorem Edit.unobserved (h : Edit dev w c a) (hu : Unobserved c) : Unobserved a := by
  intro ha
  have hc := hu (h.beforeWorker ha)
  rw [ActiveAttempt.isStructured_exec] at hc ⊢
  refine h.elim (p := fun x ph => Attempt.beforeWorker ph = true →
    x.turnStartedObserved = false ∧ x.structuredLifecycleObserved = false) (fun x ph hx hph => ?_) ha
  cases hx with
  | same | clock | identify => exact hc
  | _ => cases hph

/-- The flags of an edited attempt. -/
theorem Edit.flags (h : Edit dev w c a) (hu : Unobserved c) :
    (c.isTurnStarted = true → a.isTurnStarted = true) ∧
      (c.isStructured = true → a.isStructured = true) := by
  have hu' : c.phase = .prepareIntent → c.isTurnStarted = false ∧ c.isStructured = false :=
    fun hp => hu (by rw [hp]; rfl)
  rw [ActiveAttempt.isStructured_exec] at hu' ⊢
  rw [ActiveAttempt.isStructured_exec]
  refine h.elim (p := fun x _ => (c.isTurnStarted = true → x.turnStartedObserved = true) ∧
    (c.exec.structuredLifecycleObserved = true → x.structuredLifecycleObserved = true))
    fun x ph hx => ?_
  cases hx with
  | worker hp i at_ evidence =>
    refine ⟨fun h => ?_, id⟩
    rw [(hu' hp).1] at h
    cases h
  | working => exact ⟨fun _ => rfl, fun _ => rfl⟩
  | seen => exact ⟨id, fun _ => rfl⟩
  | running hp captured now =>
    unfold recoverRunning
    split_ifs <;> exact ⟨id, id⟩
  | _ => exact ⟨id, id⟩

/-- The completion kind changes when an outcome is recorded. -/
theorem Edit.completionKind (h : Edit dev w c a) :
    a.completionKind = c.completionKind ∨
      a.completionKind ∈ [some "not_started", some "managed_result", some "interrupted"] ∨
      ∃ kind err, c.phase = .waiting ∧ Completes w.log c kind err ∧ a.completionKind = some kind := by
  refine h.elim (p := fun x _ => x.runtimeCompletionKind = c.completionKind ∨
    x.runtimeCompletionKind ∈ [some "not_started", some "managed_result", some "interrupted"] ∨
      ∃ kind err, c.phase = .waiting ∧ Completes w.log c kind err ∧
        x.runtimeCompletionKind = some kind) fun x ph hx => ?_
  cases hx with
  | notReady | exhaust | claimed => exact .inr (.inl (.head _))
  | complete hp kind now err hc => exact .inr (.inr ⟨kind, err, hp, hc, rfl⟩)
  | running hp captured now =>
    unfold recoverRunning
    split_ifs
    · exact .inl rfl
    all_goals exact .inr (.inl (by simp [AttemptExecutorState.complete]))
  | _ => exact .inl rfl

theorem Edit.passed (h : Edit dev w c a) (hu : Unobserved c) (hp : Passed c) : Passed a := by
  rcases hp with hp | hp
  · exact .inl ((h.flags hu).2 hp)
  · refine .inr ?_
    cases h
    case advance ph hA =>
      cases hA
      case dispatchedBefore hp' _ => rcases hp' with hp' | hp' <;> simp [hp'] at hp
      all_goals simp_all
    case recover => exact .tail _ (.tail _ (.head _))
    case finalize => exact .tail _ (.head _)
    case terminalize => exact .head _
    all_goals first
      | exact hp
      | exact .head _
      | simp_all

/-! ### what the log has of the agent -/

/-- What came before the record: no flag that it does not show, and nothing seen in this session
that is not on record. -/
structure Evident (log : List Entry) (c : ActiveAttempt) : Prop where
  unobserved : Unobserved c
  turn : ∀ b, OnRecord log b → b.attemptId = c.attemptId → b.isTurnStarted = true →
    c.isTurnStarted = true
  structured : ∀ b, OnRecord log b → b.attemptId = c.attemptId → b.isStructured = true →
    c.isStructured = true
  session : Observed c.attemptId log → Passed c ∨ Seen log

theorem Observed.of_cons {x : String} {e : Call} {r : Option (Answer e)} {log : List Entry}
    (h : Observed x (.call e r :: log)) : Observed x log ∨ Seen (.call e r :: log) := by
  obtain ⟨a, tid, o, hm, hx, ho⟩ := h
  rcases List.mem_cons.1 hm with hm | hm
  · refine .inr ⟨o, ho, a, tid, ?_⟩
    rw [← hm]
    rfl
  · exact .inl ⟨a, tid, o, hm, hx, ho⟩

theorem not_observed_stopped {x : String} {log : List Entry} : ¬ Observed x (.stopped :: log) := by
  rintro ⟨a, tid, o, hm, -⟩
  cases hm

theorem Seen.housekeeping {e : Call} {r : Option (Answer e)} {log : List Entry} (h : Seen log)
    (he : (Entry.call e r).isHousekeeping = true) : Seen (.call e r :: log) := by
  obtain ⟨o, ho, a, tid, hl⟩ := h
  refine ⟨o, ho, a, tid, ?_⟩
  rw [latest_call, if_pos he]
  exact hl

theorem observed_used {x : String} (h : Observed x w.log) (ht : Traced w) : x ∈ w.used := by
  obtain ⟨a, tid, o, hm, hx, -⟩ := h
  exact ht _ (List.takeWhile_subset _ hm) x (.wait a tid _ hx)

theorem fresh_executor (h : isFreshIntent dev a = true) : a.executor = none := by
  have : a = freshIntent dev a.jobId a.workspaceId a.targetId a.attemptId a.claimToken
      a.frozenAgentId := by simpa [isFreshIntent] using h
  rw [this]
  rfl

theorem chronicled_evident (hinit : ∀ w c, Init w → Holds dev w c → Unobserved c) :
    Chronicled dev P Init (fun _ => True) Evident where
  init w c hw hc := by
    refine ⟨hinit w c hw hc, fun b hb => ?_, fun b hb => ?_, fun h => ?_⟩
    · rcases hb with h | h <;> cases h
    · rcases hb with h | h <;> cases h
    · obtain ⟨a, tid, o, hm, -⟩ := h
      cases hm
  stop log c h := by
    have hrec : ∀ b, OnRecord (.stopped :: log) b → OnRecord log b := fun b hb => by
      rcases hb.of_cons with hb | hb | hb
      · exact hb
      · cases hb
      · cases hb
    exact ⟨h.unobserved, fun b hb => h.turn b (hrec b hb), fun b hb => h.structured b (hrec b hb),
      fun ho => absurd ho not_observed_stopped⟩
  call w e r c _ hI hn ha hc hne := by
    have hR := hI.file c hc
    have hrec : ∀ b, OnRecord (.call e r :: w.log) b → OnRecord w.log b ∨ b = c := fun b hb => by
      rcases hb.of_cons with hb | hb | hb
      · exact .inl hb
      · exact absurd hb (hne b)
      · cases hb
        obtain ⟨x, -, hx⟩ := ha
        exact .inr (hc.unique (answer_loadActive hx))
    refine ⟨hR.unobserved, fun b hb hid ht => ?_, fun b hb hid hs => ?_, fun ho => ?_⟩
    · rcases hrec b hb with hb | rfl
      · exact hR.turn b hb hid ht
      · exact ht
    · rcases hrec b hb with hb | rfl
      · exact hR.structured b hb hid hs
      · exact hs
    · rcases ho.of_cons with ho | ho
      · rcases hR.session ho with hp | hs
        · exact .inl hp
        · cases hk : (Entry.call e r).isHousekeeping with
          | true => exact .inr (hs.housekeeping hk)
          | false =>
            cases e with
            | saveActive b =>
              rcases r with _ | e | _
              · cases hk
              · cases hk
              · exact absurd rfl (hne b)
            | _ => exact .inl (hn.settled hk hs c hc)
      · exact .inr ho
  edit w c a r _ hI hn ha hc hr he := by
    have hR := hI.file c hc
    have hid := he.identity.1
    have hfl := he.flags hR.unobserved
    refine ⟨he.unobserved hR.unobserved, fun b hb hb' ht => ?_, fun b hb hb' hs => ?_, fun ho => ?_⟩
    · rcases hb.of_cons with hb | hb | hb
      · exact hfl.1 (hR.turn b hb (hb'.trans hid) ht)
      · cases hb
        exact ht
      · cases hb
    · rcases hb.of_cons with hb | hb | hb
      · exact hfl.2 (hR.structured b hb (hb'.trans hid) hs)
      · cases hb
        exact hs
      · cases hb
    · rw [hid] at ho
      rcases ho.of_cons with ho | ho
      · rcases hR.session ho with hp | hs
        · exact .inl (he.passed hR.unobserved hp)
        · exact .inl (hn.settled rfl hs a rfl)
      · exact .inr ho
  fresh w a r _ ht hf hu := by
    have hx := fresh_executor hf
    have hflags : a.isTurnStarted = false ∧ a.isStructured = false := by
      rw [ActiveAttempt.isStructured_exec]
      simp [ActiveAttempt.isTurnStarted, ActiveAttempt.exec, hx, AttemptExecutorState.newOrca]
    have hrec : ∀ b, OnRecord (.call (.saveActive a) (some r) :: w.log) b →
        b.attemptId = a.attemptId → b = a := fun b hb hid => by
      rcases hb.of_cons with hb | hb | hb
      · exact absurd (hid ▸ hb.used ht) hu
      · cases hb
        rfl
      · cases hb
    refine ⟨fun _ => hflags, fun b hb hid h => ?_, fun b hb hid h => ?_, fun ho => ?_⟩
    · rw [hrec b hb hid] at h
      exact h
    · rw [hrec b hb hid] at h
      exact h
    · rcases ho.of_cons with ho | ho
      · exact absurd (observed_used ho ht) hu
      · exact .inr ho

/-! ### whole runs -/

/-- The flags only go up, and a completion is recorded with the evidence it needs. Its first record
is meant: a record that is only carried on says nothing new. -/
structure EvidenceSound (log : List Entry) : Prop where
  monotone : ∀ pre e b before, log = pre ++ e :: before → OnRecord [e] b →
    ∀ b', OnRecord before b' → b'.attemptId = b.attemptId →
      (b'.isTurnStarted = true → b.isTurnStarted = true) ∧
        (b'.isStructured = true → b.isStructured = true)
  idle : ∀ pre b r before, log = pre ++ .call (.saveActive b) r :: before →
    b.completionKind = some "tui_idle" →
    (∀ b', OnRecord before b' → b'.attemptId = b.attemptId →
      b'.completionKind ≠ some "tui_idle") →
    (∀ b', OnRecord before b' → b'.attemptId = b.attemptId → b'.isStructured = false) ∧
      ¬ Observed b.attemptId before
  done : ∀ pre b r before, log = pre ++ .call (.saveActive b) r :: before →
    b.completionKind = some "agent_done" →
    (∀ b', OnRecord before b' → b'.attemptId = b.attemptId →
      b'.completionKind ≠ some "agent_done") →
    ∃ b', OnRecord before b' ∧ b'.attemptId = b.attemptId ∧ b'.isTurnStarted = true

theorem EvidenceSound.cons {e : Entry} {log : List Entry} (h : EvidenceSound log)
    (hm : ∀ b, OnRecord [e] b → ∀ b', OnRecord log b' → b'.attemptId = b.attemptId →
      (b'.isTurnStarted = true → b.isTurnStarted = true) ∧
        (b'.isStructured = true → b.isStructured = true))
    (hi : ∀ b r, e = .call (.saveActive b) r → b.completionKind = some "tui_idle" →
      (∀ b', OnRecord log b' → b'.attemptId = b.attemptId →
        b'.completionKind ≠ some "tui_idle") →
      (∀ b', OnRecord log b' → b'.attemptId = b.attemptId → b'.isStructured = false) ∧
        ¬ Observed b.attemptId log)
    (hd : ∀ b r, e = .call (.saveActive b) r → b.completionKind = some "agent_done" →
      (∀ b', OnRecord log b' → b'.attemptId = b.attemptId →
        b'.completionKind ≠ some "agent_done") →
      ∃ b', OnRecord log b' ∧ b'.attemptId = b.attemptId ∧ b'.isTurnStarted = true) :
    EvidenceSound (e :: log) := by
  refine ⟨fun pre e' b before hl => ?_, fun pre b r before hl => ?_, fun pre b r before hl => ?_⟩
  · rcases split_cons hl with ⟨rfl, rfl⟩ | ⟨pre, hl⟩
    · exact hm b
    · exact h.monotone pre e' b before hl
  · rcases split_cons hl with ⟨rfl, rfl⟩ | ⟨pre, hl⟩
    · exact hi b r rfl
    · exact h.idle pre b r before hl
  · rcases split_cons hl with ⟨rfl, rfl⟩ | ⟨pre, hl⟩
    · exact hd b r rfl
    · exact h.done pre b r before hl

theorem OnRecord.of_singleton {e : Entry} {b : ActiveAttempt} (h : OnRecord [e] b) :
    e = .call (.saveActive b) (some (.ok ())) ∨ e = .call .loadActive (some (.ok (some b))) := by
  rcases h.of_cons with h | h
  · rcases h with h | h <;> cases h
  · exact h

theorem Completes.idle_inv {log : List Entry} {kind : String} {err : Option ExecutionReportError}
    (h : Completes log c kind err) (hk : kind = "tui_idle") :
    Waited log .tuiIdle ∧ c.isStructured = false := by
  cases h with
  | idle _ hw hs =>
    refine ⟨hw, ?_⟩
    rw [ActiveAttempt.isStructured_exec]
    unfold ActiveAttempt.exec
    cases hx : c.executor with
    | none => rfl
    | some exec => exact hs exec hx
  | _ => simp at hk

theorem Completes.done_inv {log : List Entry} {kind : String} {err : Option ExecutionReportError}
    (h : Completes log c kind err) (hk : kind = "agent_done") :
    ∀ exec, c.executor = some exec → exec.turnStartedObserved = true := by
  cases h with
  | done _ _ ht => exact ht
  | _ => simp at hk

theorem Waited.not_seen {log : List Entry} {o : WaitOutcome} (h : Waited log o)
    (ho : o.isStructured = false) : ¬ Seen log := by
  rintro ⟨o', ho', a', tid', hl'⟩
  obtain ⟨a, tid, hl⟩ := h
  rw [hl] at hl'
  cases hl'
  rw [ho] at ho'
  cases ho'

theorem evidence_invariant (hstart : Starts Init)
    (hinit : ∀ w c, Init w → Holds dev w c → Unobserved c) :
    Invariant dev P Init fun w => Chronicle dev Evident w ∧ EvidenceSound w.log := by
  refine log_invariant hstart (chronicle_invariant hstart (chronicled_evident hinit))
    ⟨fun pre e b before hl => ?_, fun pre b r before hl => ?_, fun pre b r before hl => ?_⟩
    (fun log h => h.cons (fun b hb => ?_) (fun b r h => ?_) fun b r h => ?_) ?_
  · cases pre <;> cases hl
  · cases pre <;> cases hl
  · cases pre <;> cases hl
  · rcases hb.of_singleton with hb | hb <;> cases hb
  · cases h
  · cases h
  intro w e r hI hn ha h
  refine h.cons (fun b hb b' hb' hid => ?_) (fun b r' he hk hfirst => ?_)
    fun b r' he hk hfirst => ?_
  · rcases hb.of_singleton with hb | hb
    · cases hb
      rcases hn.demand.2 with ⟨c, hc, -, hE⟩ | ⟨-, -, hu⟩
      · have hR := hI.file c hc
        have hfl := hE.flags hR.unobserved
        rw [hE.identity.1] at hid
        exact ⟨fun h => hfl.1 (hR.turn b' hb' hid h), fun h => hfl.2 (hR.structured b' hb' hid h)⟩
      · exact absurd (hid ▸ hb'.used hI.traced) hu
    · cases hb
      obtain ⟨x, -, hx⟩ := ha
      have hR := hI.file b (answer_loadActive hx)
      exact ⟨hR.turn b' hb' hid, hR.structured b' hb' hid⟩
  · cases he
    rcases hn.demand.2 with ⟨c, hc, hr, hE⟩ | ⟨-, hf, -⟩
    · have hR := hI.file c hc
      have hid := hE.identity.1
      rcases hE.completionKind with hs | hs | ⟨kind, err, hp, hC, hs⟩
      · exact absurd (hs ▸ hk) (hfirst c (.inr hr.mem) hid.symm)
      · simp [hk] at hs
      · have hkind : kind = "tui_idle" := by simpa [hk] using hs.symm
        obtain ⟨hw, hst⟩ := hC.idle_inv hkind
        refine ⟨fun b' hb' hid' => ?_, fun ho => ?_⟩
        · by_contra hb''
          have := hR.structured b' hb' (hid'.trans hid) (by simpa using hb'')
          rw [hst] at this
          cases this
        · rw [hid] at ho
          rcases hR.session ho with hpass | hseen
          · rcases hpass with h' | h'
            · rw [hst] at h'
              cases h'
            · simp [hp] at h'
          · exact hw.not_seen rfl hseen
    · have hx := fresh_executor hf
      simp [ActiveAttempt.completionKind, ActiveAttempt.exec, hx, AttemptExecutorState.newOrca] at hk
  · cases he
    rcases hn.demand.2 with ⟨c, hc, hr, hE⟩ | ⟨-, hf, -⟩
    · have hid := hE.identity.1
      rcases hE.completionKind with hs | hs | ⟨kind, err, hp, hC, hs⟩
      · exact absurd (hs ▸ hk) (hfirst c (.inr hr.mem) hid.symm)
      · simp [hk] at hs
      · have hkind : kind = "agent_done" := by simpa [hk] using hs.symm
        obtain ⟨exec, hx, -⟩ := executor_of_valid hc.valid.1 (by rw [hp]; rfl)
        refine ⟨c, .inr hr.mem, hid.symm, ?_⟩
        have := hC.done_inv hkind exec hx
        simpa [ActiveAttempt.isTurnStarted, ActiveAttempt.exec, hx] using this
    · have hx := fresh_executor hf
      simp [ActiveAttempt.completionKind, ActiveAttempt.exec, hx, AttemptExecutorState.newOrca] at hk

/-- **The evidence is kept and the completion fits it**, from any state directory that a daemon of
this or an older version leaves behind. -/
theorem evidence_sound (hstart : Starts Init)
    (hinit : ∀ w c, Init w → Holds dev w c → Unobserved c)
    {s : Machine.State World Call Answer Out} (hs : (daemon dev Init).system.Reachable s) :
    EvidenceSound s.store.log :=
  (daemon_inv hstart (evidence_invariant hstart hinit) (Machine.reachable_any hs)).1.2

end

/-! ### a run with an agent -/

namespace Sample

/-- The attempt while its agent works. -/
def waiting (resultTarget : String) : ActiveAttempt :=
  (((prepared resultTarget).mapExecutor (·.startClock 3000 (some 600))).mapExecutor
    (·.accept "request-1" 4000 false)).inPhase .waiting

/-- The same on a disk of version 5. -/
def waitingBefore : ActiveAttempt := { waiting "result" with schemaVersion := 5 }

/-- A round of the loop that waits for the agent. -/
def wait (o : WaitOutcome) : List Step :=
  .resume :: .reply (.time 5000) :: .reply (.detail (.error .unauthorized)) ::
    .reply (.time 5000) :: .reply (.wait (.ok o)) :: oks 2

end Sample

set_option maxRecDepth 10000 in
/-- The evidence of an attempt of an older version whose agent works and is done. -/
theorem evidence_sound_sample :
    ∃ s, (daemon .sample (· = Sample.directory Sample.waitingBefore)).system.Reachable s ∧
      (s.store.active.map (·.completionKind) = some (some "agent_done")) ∧
      EvidenceSound s.store.log := by
  obtain ⟨s, hs, hc⟩ := Sample.reachable (Sample.directory Sample.waitingBefore)
    (Sample.start ++ Sample.wait .workingObserved ++ Sample.oks 2 ++ Sample.wait .agentDone ++
      .reply (.time 5000) :: Sample.oks 2)
    (fun w => decide (w.active.map (·.completionKind) = some (some "agent_done")))
    (by decide +kernel)
  refine ⟨s, hs, of_decide_eq_true hc, evidence_sound (Sample.starts_directory _) ?_ hs⟩
  rintro w c rfl hc hb
  obtain ⟨a, ha, hl⟩ := hc.loaded
  cases ha
  have hp := ActiveAttempt.load_ok_iff.1 hl
  cases hp.1
  cases hb

end Ceo.Attempt
