import Ceo.Attempt.Deliverable

/-!
# Reports of attempts that were not started

A report without a dispatch says that nobody works on the job. It is built from
what is on record: a spent budget of sends, an agent that was not ready, or an
outcome that recovery made up. `cautious` names the answers that make one of
the three wrong; without them the report is true in every run.
-/

namespace Ceo.Attempt

open Ceo.Lib Ceo.Jobs
open Ceo.Connector (Phase)

/-! ### calls that may have put an agent to work -/

/-- A prepare that may have started a worker with the prompt. Its errors come before the worker is
started. -/
def mayStartWorker (target : LocalTarget) : Option (Except String PrepareOutcome) → Bool
  | some (.error _) | some (.ok (.notReady _ _)) => false
  | some (.ok (.ready prep)) => isLogicalAgent (some target) || prep.dispatch.isSome
  | _ => isLogicalAgent (some target)

/-- A send that was not rejected before acceptance. -/
def mayBeAccepted : Option (Except String DispatchOutcome) → Bool
  | some (.ok (.knownRejectedBeforeAcceptance _)) => false
  | _ => true

/-- After this call an agent may be at work for the attempt. -/
def Entry.isOpen (x : String) : Entry → Bool
  | .call (.dispatch a _) r => a.attemptId == x && mayBeAccepted r
  | .call (.prepare a target) r => a.attemptId == x && mayStartWorker target r
  | _ => false

def isOpen (x : String) (log : List Entry) : Bool := log.any (Entry.isOpen x)

/-- A worker may have been started for the attempt. -/
def Entry.isWorkerStart (x : String) (e : Entry) : Bool := e.isOpen x && !e.isSend x

/-- The last send for the attempt was rejected, if there was one. -/
def lastSendRejected (x : String) (log : List Entry) : Bool :=
  (log.find? (Entry.isSend x)).all fun e => !e.isOpen x

/-- A report without a dispatch is built for attempts only that no agent can be at work for. -/
def TrulyNotStarted (log : List Entry) : Prop :=
  ∀ pre o r before, log = pre ++ .call (.saveOutbox o) r :: before →
    o.report.taskDispatched = false → isOpen o.attemptId before = false

/-! ### the answers that mislead -/

/-- `terminalize` makes up an outcome without a dispatch for the attempt. -/
def closesUndispatched (c : ActiveAttempt) (detail : JobDetail) : Bool :=
  detail.state != "terminal" && detail.execution.map (·.attemptId) == some c.attemptId &&
    !(serverRunning detail && c.exec.dispatchRequestId.isSome)

section

variable (dev : Device)

/-- The adapter says that the prompt has not been sent only when the last send was rejected and no
worker was started, and that the agent is not ready only when nothing was started before. The
coordinator does not have an attempt in recovery, for which an agent may be at work, as one to
close without a dispatch. -/
def cautiousReply (w : World) : Call → Reply → Bool
  | .reconcileDispatch a _, .reconcile (.ok .definitelyNotDispatched) =>
    lastSendRejected a.attemptId w.log && !w.log.any (Entry.isWorkerStart a.attemptId)
  | .prepare a _, .prepare (.ok (.notReady _ _)) => !isOpen a.attemptId w.log
  | .getJob j, .detail (.ok detail) =>
    match loadFile dev w with
    | .ok (some c) => !(c.phase == .recoveryRequired && c.jobId == j &&
        isOpen c.attemptId w.log && closesUndispatched c detail)
    | _ => true
  | _, _ => true

def cautious : Policy World Call Reply Project where
  reply w e x := cautiousReply dev w e x = true
  lose _ _ := True
  crash _ := True
  surround _ _ := True

end

section

variable {dev : Device} {P : Policy World Call Reply Project} {Init : World → Prop}
  {w : World} {c a : ActiveAttempt} {x : String} {log : List Entry}

theorem isOpen_cons (e : Entry) (log : List Entry) :
    isOpen x (e :: log) = (e.isOpen x || isOpen x log) := List.any_cons

theorem isOpen_append (l log : List Entry) : isOpen x (l ++ log) = (isOpen x l || isOpen x log) :=
  List.any_append

/-- A list of entries none of which opens anything. -/
theorem isOpen_skip {pre rest : List Entry} {e : Entry} (hpre : ∀ y ∈ pre, y.isOpen x = false)
    (he : e.isOpen x = false) : isOpen x (pre ++ e :: rest) = isOpen x rest := by
  rw [isOpen_append, isOpen_cons, he, Bool.false_or]
  have : isOpen x pre = false := by
    unfold isOpen
    rw [List.any_eq_false]
    exact fun y hy => by simp [hpre y hy]
  rw [this, Bool.false_or]

theorem Entry.isOpen_housekeeping {y : Entry} (h : y.isHousekeeping = true) : y.isOpen x = false := by
  cases y with
  | stopped => rfl
  | call e r => cases e <;> first | rfl | cases h

theorem Entry.isOpen_aside {y : Entry} (h : y.isAside = true) : y.isOpen x = false := by
  cases y with
  | stopped => rfl
  | call e r => cases e <;> first | rfl | cases h

/-- The last call that is not housekeeping stands behind housekeeping. -/
theorem latest_split {y : Entry} (h : latest log = some y) :
    ∃ pre rest, log = pre ++ y :: rest ∧ ∀ z ∈ pre, z.isHousekeeping = true := by
  obtain ⟨-, pre, rest, hl, hpre⟩ := List.find?_eq_some_iff_append.1 h
  exact ⟨pre, rest, hl, fun z hz => by simpa using hpre z hz⟩

/-! ### what the adapter has denied -/

/-- The attempt whose agent has not been put to work, as the adapter says. -/
def Entry.denies : Entry → Option String
  | .call (.reconcileDispatch a _) (some (.ok .definitelyNotDispatched)) => some a.attemptId
  | .call (.prepare a _) (some (.ok (.notReady _ _))) => some a.attemptId
  | _ => none

/-- What the adapter has denied was true. -/
def Denied (log : List Entry) : Prop :=
  ∀ pre y x rest, log = pre ++ y :: rest → y.denies = some x → isOpen x rest = false

theorem Denied.cons {y : Entry} (h : Denied log)
    (hy : ∀ x, y.denies = some x → isOpen x log = false) : Denied (y :: log) := by
  intro pre z x rest hl hz
  rcases split_cons hl with ⟨rfl, rfl⟩ | ⟨pre, hl⟩
  · exact hy x hz
  · exact h pre z x rest hl hz

/-- The entries of a sending pass open nothing. -/
theorem isOpen_sendingPass (tid : String) (target : Option LocalTarget)
    (baseline : Except String (Option Int)) : isOpen x (sendingPass a tid target baseline) = false := by
  simp [isOpen, sendingPass, Entry.isOpen]

/-- Before a send nothing was open: the adapter had denied it in the same pass. -/
theorem SendsJustified.before (h : SendsJustified log) (hd : Denied log) {pre before : List Entry}
    {tid : String} {r : Option (Answer (.dispatch a tid))}
    (hl : log = pre ++ .call (.dispatch a tid) r :: before) : isOpen a.attemptId before = false := by
  obtain ⟨target, baseline, rest, hb, -, -⟩ := (h.justified pre a tid r before hl).pass
  have hrest := hd (pre ++ .call (.dispatch a tid) r ::
      (sendingPass a tid target baseline).take 5)
    (.call (.reconcileDispatch a tid) (some (.ok .definitelyNotDispatched))) a.attemptId
    ((sendingPass a tid target baseline).drop 6 ++ rest) (by rw [hl, hb]; simp [sendingPass]) rfl
  rw [isOpen_append, Bool.or_eq_false_iff] at hrest
  rw [hb, isOpen_append, isOpen_sendingPass, hrest.2]
  rfl

/-- If the last send was rejected then all were, and nothing else was started. -/
theorem isOpen_eq_false (h : SendsJustified log) (hd : Denied log)
    (hs : lastSendRejected x log = true) (hw : log.any (Entry.isWorkerStart x) = false) :
    isOpen x log = false := by
  unfold isOpen
  rw [List.any_eq_false]
  intro y hy ho
  have hsend : y.isSend x = true := by
    rw [List.any_eq_false] at hw
    have := hw y hy
    simp only [Entry.isWorkerStart, ho, Bool.true_and] at this
    simpa using this
  cases hf : log.find? (Entry.isSend x) with
  | none =>
    have := List.find?_eq_none.1 hf y hy
    exact this hsend
  | some z =>
    obtain ⟨hz, pre, before, hl, hpre⟩ := List.find?_eq_some_iff_append.1 hf
    have hzo : z.isOpen x = false := by
      simpa [lastSendRejected, hf] using hs
    have hbefore : isOpen x before = false := by
      cases z with
      | stopped => cases hz
      | call e r =>
        cases e <;> try cases hz
        case dispatch a tid =>
        obtain rfl : a.attemptId = x := by simpa [Entry.isSend] using hz
        exact h.before hd hl
    rw [hl] at hy
    rcases List.mem_append.1 hy with hy | hy
    · have := hpre y hy
      simp [hsend] at this
    · rcases List.mem_cons.1 hy with rfl | hy
      · rw [ho] at hzo
        cases hzo
      · unfold isOpen at hbefore
        rw [List.any_eq_false] at hbefore
        exact hbefore y hy ho

theorem denied_invariant (hstart : Starts Init) :
    Invariant dev (cautious dev) Init fun w =>
      (Chronicle dev Accounted w ∧ SendsJustified w.log) ∧ Denied w.log := by
  refine log_invariant hstart (sendsJustified_invariant hstart)
    (fun pre y x rest hl => by cases pre <;> cases hl)
    (fun log h => h.cons fun x hx => by cases hx) ?_
  intro w e r hJ hn ha h
  refine h.cons fun x hx => ?_
  cases e with
  | reconcileDispatch a tid =>
    rcases r with _ | _ | _ | _ | _ <;> try cases hx
    obtain ⟨y, hp, hy⟩ := ha
    cases y <;> cases hy
    have hp : (lastSendRejected a.attemptId w.log &&
      !w.log.any (Entry.isWorkerStart a.attemptId)) = true := hp
    simp only [Bool.and_eq_true, Bool.not_eq_true'] at hp
    exact isOpen_eq_false hJ.2 h hp.1 hp.2
  | prepare a target =>
    rcases r with _ | _ | outcome
    · cases hx
    · cases hx
    · cases outcome <;> try cases hx
      obtain ⟨y, hp, hy⟩ := ha
      cases y <;> cases hy
      have hp : (!isOpen a.attemptId w.log) = true := hp
      simpa using hp
  | _ => cases hx

/-! ### the record of an attempt that was not started -/

/-- The outcome on record has no dispatch. -/
def Undispatched (c : ActiveAttempt) : Prop :=
  c.phase = .outcomeRecorded ∧ c.exec.dispatchRequestId = none

/-- An outcome without a dispatch is that of an attempt with nothing open, and recovery closes no
other without a dispatch. -/
structure Closed (log : List Entry) (c : ActiveAttempt) : Prop where
  outcome : Undispatched c → isOpen c.attemptId log = false
  asked : c.phase = .recoveryRequired → ∀ detail,
    lastAsked log = some (.call (.getJob c.jobId) (some (.ok detail))) →
      isOpen c.attemptId log = true → closesUndispatched c detail = false

/-- The calls that open something are made for attempts in other phases. -/
theorem Needs.not_open {e : Call} {r : Option (Answer e)} (hn : Needs dev w e) (hc : Holds dev w c)
    (hp : c.phase = .outcomeRecorded) : (Entry.call e r).isOpen c.attemptId = false := by
  cases e with
  | dispatch a tid =>
    obtain ⟨target, baseline, rest, hr⟩ := hn.demand
    obtain rfl := hr.sound.of_holds hc
    exact absurd (hr.phase.symm.trans hp) (by decide)
  | prepare a target =>
    obtain ⟨⟨b, hs, -, hb, -⟩, -⟩ := hn.demand
    obtain rfl := hs.of_holds hc
    exact absurd (hb.symm.trans hp) (by decide)
  | _ => rfl

/-- After an answer of the adapter that denies it nothing is open. -/
theorem Denied.latest {y : Entry} (h : Denied log) (hl : latest log = some y)
    (hy : y.denies = some x) (ho : y.isOpen x = false) : isOpen x log = false := by
  obtain ⟨pre, rest, rfl, hpre⟩ := latest_split hl
  rw [isOpen_skip (fun z hz => Entry.isOpen_housekeeping (hpre z hz)) ho]
  exact h pre y x rest rfl hy

/-- An edit that records an outcome without a dispatch has nothing open. -/
theorem Edit.undispatched (h : Edit dev w c a) (hv : c.Valid dev.toHost) (hd : Denied w.log)
    (hR : Closed w.log c) (ha : Undispatched a) : isOpen a.attemptId w.log = false := by
  obtain ⟨hp, hn⟩ := ha
  rw [h.identity.1]
  cases h with
  | notReady hp' i reason now b target hl hb =>
    exact hd.latest hl (congrArg some hb) (by simp [Entry.isOpen, mayStartWorker])
  | exhaust hp' now ho hs tid hl => exact hd.latest hl rfl rfl
  | complete hp' kind now err hC =>
    obtain ⟨exec, hx, hg⟩ := executor_of_valid hv (by rw [hp']; rfl)
    have hr := ((all_waiting hp' hx).1 hg).2
    have hm : (c.mapExecutor (·.complete kind now err)).exec = exec.complete kind now err :=
      mapExecutor_complete hx
    have : exec.dispatchRequestId = none := by
      have := congrArg AttemptExecutorState.dispatchRequestId hm
      exact this.symm.trans hn
    rw [this] at hr
    cases hr
  | terminalize hp' detail captured now hcap hl hdet =>
    by_contra hopen
    have hclose := hR.asked hp' detail hl (by simpa using hopen)
    have hrun : (serverRunning detail && c.exec.dispatchRequestId.isSome) = true := by
      simpa [closesUndispatched, hdet.1, hdet.2] using hclose
    rw [Bool.and_eq_true] at hrun
    have hn : AttemptExecutorState.dispatchRequestId (if serverRunning detail then
        recoverRunning c.exec captured now else recoverClaimed c.exec now) = none := hn
    rw [if_pos hrun.1] at hn
    have hsame : (recoverRunning c.exec captured now).dispatchRequestId =
        c.exec.dispatchRequestId := by
      unfold recoverRunning
      split_ifs <;> rfl
    rw [← hsame, hn] at hrun
    cases hrun.2
  | advance hA => cases hA <;> cases hp
  | ready hp' prep b target hl ha =>
    revert hp
    unfold ActiveAttempt.ready
    cases prep.dispatch <;> (intro hp; cases hp)
  | clock hp' | identify hp' | count hp' | reject hp' | doubt hp' | working hp' | seen hp' =>
    exact absurd (hp'.symm.trans hp) (by decide)
  | _ => cases hp

/-- What is known of every run before the record is looked at. -/
def Told (dev : Device) (w : World) : Prop :=
  (Chronicle dev Accounted w ∧ SendsJustified w.log) ∧ Denied w.log

theorem chronicled_closed : Chronicled dev (cautious dev) Init (Told dev) Closed where
  init w c _ _ := ⟨fun _ => rfl, fun _ detail hl => by cases hl⟩
  stop log c h := ⟨h.outcome, fun _ detail hl => by cases hl⟩
  call w e r c hK hI hn ha hc hne := by
    have hR := hI.file c hc
    refine ⟨fun hu => ?_, fun hp detail hl ho => ?_⟩
    · rw [isOpen_cons, hn.not_open hc hu.1, hR.outcome hu]
      rfl
    · cases has : (Entry.call e r).isAside with
      | true =>
        rw [isOpen_cons, Entry.isOpen_aside has] at ho
        refine hR.asked hp detail ?_ ho
        unfold lastAsked at hl
        rw [List.find?_cons_of_neg (by simp [has])] at hl
        exact hl
      | false =>
        unfold lastAsked at hl
        rw [List.find?_cons_of_pos (by simp [has])] at hl
        cases hl
        obtain ⟨y, hp', hy⟩ := ha
        cases y <;> cases hy
        have hp' : (match loadFile dev w with
          | .ok (some b) => !(b.phase == .recoveryRequired && b.jobId == c.jobId &&
              isOpen b.attemptId w.log && closesUndispatched b detail)
          | _ => true) = true := hp'
        have ho : isOpen c.attemptId w.log = true := ho
        rw [show loadFile dev w = .ok (some c) from hc] at hp'
        simpa [hp, ho] using hp'
  edit w c a r hK hI hn ha hc hr he := by
    refine ⟨fun hu => ?_, fun _ detail hl => by cases hl⟩
    exact he.undispatched hc.valid.1 hK.2 (hI.file c hc) hu
  fresh w a r _ ht hf hu := by
    have hp : a.phase = .claimIntent := by
      have : a = freshIntent dev a.jobId a.workspaceId a.targetId a.attemptId a.claimToken
        a.frozenAgentId := by simpa [isFreshIntent] using hf
      rw [this]
      rfl
    exact ⟨fun hu => absurd (hp.symm.trans hu.1) (by decide),
      fun hp' => absurd (hp.symm.trans hp') (by decide)⟩

/-! ### whole runs -/

/-- What the pass has read stays true of the log while it makes its report. -/
def ReadClosed (log : List Entry) : Prop :=
  ∀ c, Reading c log → Undispatched c → isOpen c.attemptId log = false

theorem Reading.unique {b c : ActiveAttempt} (h : Reading c log) (h' : Reading b log) : b = c := by
  unfold Reading at h h'
  rw [h] at h'
  cases h'
  rfl

/-- A pass that has read a recorded outcome puts no agent to work. -/
theorem Needs.not_open_read {e : Call} {r : Option (Answer e)} (hn : Needs dev w e)
    (hr : Reading c w.log) (hp : c.phase = .outcomeRecorded) :
    (Entry.call e r).isOpen c.attemptId = false := by
  cases e with
  | dispatch a tid =>
    obtain ⟨target, baseline, rest, hs⟩ := hn.demand
    have hread : Reading a w.log := by
      unfold Reading
      rw [hs.log]
      rfl
    obtain rfl := hr.unique hread
    exact absurd (hs.phase.symm.trans hp) (by decide)
  | prepare a target =>
    obtain ⟨-, b, hread, hb⟩ := hn.demand
    obtain rfl := hr.unique hread
    exact absurd (hb.symm.trans hp) (by decide)
  | _ => rfl

theorem readClosed_call {e : Call} {r : Option (Answer e)} (h : ReadClosed w.log)
    (hc : Chronicle dev Closed w) (hn : Needs dev w e) (ha : Allowed dev P w e r) :
    ReadClosed (.call e r :: w.log) := by
  intro c hr hu
  cases hk : e.isReading with
  | true =>
    unfold Reading at hr
    rw [List.find?_cons_of_pos (by exact hk)] at hr
    cases hr
    obtain ⟨x, -, hx⟩ := ha
    exact (hc.file c (answer_loadActive hx)).outcome hu
  | false =>
    have hr : Reading c w.log := by
      unfold Reading at hr
      rwa [List.find?_cons_of_neg (by simp [Entry.isReading, hk])] at hr
    rw [isOpen_cons, hn.not_open_read hr hu.1, h c hr hu]
    rfl

theorem TrulyNotStarted.cons {e : Entry} (h : TrulyNotStarted log)
    (he : ∀ o r, e = .call (.saveOutbox o) r → o.report.taskDispatched = false →
      isOpen o.attemptId log = false) : TrulyNotStarted (e :: log) := by
  intro pre o r before hl ht
  rcases split_cons hl with ⟨rfl, rfl⟩ | ⟨pre, hl⟩
  · exact he o r rfl ht
  · exact h pre o r before hl ht

theorem not_started_invariant (hstart : Starts Init) :
    Invariant dev (cautious dev) Init fun w =>
      ((Told dev w ∧ Chronicle dev Closed w) ∧ ReadClosed w.log) ∧ TrulyNotStarted w.log := by
  have hread : Invariant dev (cautious dev) Init fun w =>
      (Told dev w ∧ Chronicle dev Closed w) ∧ ReadClosed w.log := by
    refine log_invariant hstart
      (chronicle_over hstart (denied_invariant hstart) chronicled_closed)
      (fun c hr => by cases hr) (fun log _ c hr => by cases hr) ?_
    exact fun w e r hJ hn ha h => readClosed_call h hJ.2 hn ha
  refine log_invariant hstart hread (fun pre o r before hl => by cases pre <;> cases hl)
    (fun log h => h.cons fun o r he => by cases he) ?_
  intro w e r hJ hn ha h
  refine h.cons fun o r' he ht => ?_
  cases he
  obtain ⟨c, exec, v, closed, startedMs, completedMs, createdAtMs, -, -, hr, hp, hx, -, ho⟩ :=
    hn.demand
  have hu : Undispatched c := by
    refine ⟨hp, ?_⟩
    rw [ho] at ht
    have ht : exec.dispatchRequestId.isSome = false := ht
    rw [exec_of_executor hx]
    simpa using ht
  rw [ho]
  exact hJ.2 c hr hu

/-- **A report that nobody works on the job is true** in every run of the daemon in which no
answer misleads it. -/
theorem not_started_truthful (hstart : Starts Init)
    {s : Machine.State World Call Answer Out}
    (hs : ((daemon dev Init).under (cautious dev)).Reachable s) : TrulyNotStarted s.store.log :=
  (daemon_inv hstart (not_started_invariant hstart) hs).1.2

end

/-! ### the Orca adapter -/

/-- `reconcile_dispatch` looks at the record of the attempt only. -/
def orcaReconcile (attempt : ActiveAttempt) : DispatchReconciliation :=
  if (attempt.executor.map (·.dispatchSendCount)).getD 0 = 0 then .definitelyNotDispatched
  else
    match attempt.executor.bind (·.dispatchRequestId) with
    | some requestId => .accepted requestId
    | none =>
      if attempt.executor.bind (·.lastDispatchOutcome) = some "known_rejected" then
        .definitelyNotDispatched
      else .ambiguous

def orcaReply : Call → Reply → Bool
  | .reconcileDispatch a _, .reconcile r => r.toOption == some (orcaReconcile a)
  | _, _ => true

/-- The runs with the Orca adapter. -/
def orca : Policy World Call Reply Project where
  reply _ e x := orcaReply e x = true
  lose _ _ := True
  crash _ := True
  surround _ _ := True

section

instance (w : World) (e : Call) (x : Reply) : Decidable (orca.reply w e x) :=
  inferInstanceAs (Decidable (_ = true))

instance (w : World) (e : Call) : Decidable (orca.lose w e) := .isTrue trivial

instance (w : World) : Decidable (orca.crash w) := .isTrue trivial

instance (w : World) (x : Project) : Decidable (orca.surround w x) := .isTrue trivial

variable (dev : Device)

instance (w : World) (e : Call) (x : Reply) : Decidable ((cautious dev).reply w e x) :=
  inferInstanceAs (Decidable (_ = true))

instance (w : World) (e : Call) : Decidable ((cautious dev).lose w e) := .isTrue trivial

instance (w : World) : Decidable ((cautious dev).crash w) := .isTrue trivial

instance (w : World) (x : Project) : Decidable ((cautious dev).surround w x) := .isTrue trivial

end

/-- The last call saves a report without a dispatch, and an agent may be at work or not. -/
def savesNotStarted (opened : Bool) : List Entry → Bool
  | .call (.saveOutbox o) _ :: before =>
    !o.report.taskDispatched && (isOpen o.attemptId before == opened)
  | _ => false

theorem not_trulyNotStarted {log : List Entry} (h : savesNotStarted true log = true) :
    ¬ TrulyNotStarted log := by
  unfold savesNotStarted at h
  split at h
  · intro hT
    simp only [Bool.and_eq_true, Bool.not_eq_true', beq_iff_eq] at h
    rw [hT [] _ _ _ rfl h.1] at h
    cases h.2
  · cases h

namespace Sample

def rejected : DispatchOutcome := .knownRejectedBeforeAcceptance "terminal busy"

/-- The prompt was rejected once and is sent again. -/
def resent : List Step :=
  start ++ intend ++ flushed ++ send (.ok none) rejected ++ again

/-- The budget of sends is spent, and the report is saved. -/
def exhausts : List Step :=
  .reply (.config (.ok (some target))) :: .reply (.reconcile (.ok .definitelyNotDispatched)) ::
    oks 2 ++ .reply (.time 5000) :: oks 2

/-- The prompt is accepted, and the daemon stops before it has this on disk. -/
def sendUnrecorded : List Step :=
  (send (.ok none) (.accepted "request-1" 4000 false)).take 8 ++ [.crash]

end Sample

set_option maxRecDepth 10000 in
/-- Two sends that are rejected: the report without a dispatch is true. -/
theorem not_started_truthful_sample : ∃ s,
    ((daemon .sample (· = Sample.directory (Sample.prepared "result"))).under
        (cautious .sample)).Reachable s ∧
      savesNotStarted false s.store.log = true ∧ TrulyNotStarted s.store.log := by
  obtain ⟨s, hs, hc⟩ := Sample.reachable_under (cautious .sample)
    (Sample.directory (Sample.prepared "result"))
    (Sample.resent ++ Sample.send (.ok none) Sample.rejected ++ Sample.again ++ Sample.exhausts ++
      Sample.again ++ [.reply (.time 6000), .reply .ok])
    (fun w => savesNotStarted false w.log) (by decide +kernel)
  exact ⟨s, hs, hc, not_started_truthful (Sample.starts_directory _) hs⟩

set_option maxRecDepth 10000 in
/-- The prompt is rejected, sent again and accepted. The daemon stops before it has the acceptance on
disk; the rejection of the first send is still there, and the attempt is reported as not started. -/
theorem not_started_untrue :
    ¬ ∀ s, ((daemon .sample (· = Sample.directory (Sample.prepared "result"))).under
        orca).Reachable s → TrulyNotStarted s.store.log := by
  intro h
  obtain ⟨s, hs, hc⟩ := Sample.reachable_under orca (Sample.directory (Sample.prepared "result"))
    (Sample.resent ++ Sample.sendUnrecorded ++ Sample.start ++ Sample.exhausts ++ Sample.flushed ++
      [.reply (.time 6000), .reply .ok])
    (fun w => savesNotStarted true w.log) (by decide +kernel)
  exact not_trulyNotStarted hc (h s hs)

end Ceo.Attempt
