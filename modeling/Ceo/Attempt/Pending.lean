import Ceo.Attempt.OneReport

/-!
# A pending report has its attempt

The outbox and the attempt are two files. The daemon writes and removes them in
an order that keeps the attempt as long as its report is pending; a project
command that converges a cancelled attempt does not look at the outbox.
`guarded` leaves out the steps of the two programs that part them.
-/

namespace Ceo.Attempt

open Ceo.Lib Ceo.Jobs
open Ceo.Connector (Phase)

section

variable (dev : Device)

/-- A report is saved while its attempt is in the file. -/
def maySave (w : World) : Call → Bool
  | .saveOutbox o =>
    match loadFile dev w with
    | .ok (some c) => c.jobId == o.jobId && c.attemptId == o.attemptId
    | _ => false
  | _ => true

/-- A project command removes the attempt while no report is pending. -/
def mayRemove (w : World) : Project → Bool
  | .removeActive => w.outbox.isEmpty
  | .writeHistory _ => true

def guarded : Policy World Call Reply Project where
  reply w e _ := maySave dev w e = true
  lose _ _ := True
  crash _ := True
  surround w x := mayRemove w x = true

instance (w : World) (e : Call) (x : Reply) : Decidable ((guarded dev).reply w e x) :=
  inferInstanceAs (Decidable (_ = true))

instance (w : World) (e : Call) : Decidable ((guarded dev).lose w e) := .isTrue trivial

instance (w : World) : Decidable ((guarded dev).crash w) := .isTrue trivial

instance (w : World) (x : Project) : Decidable ((guarded dev).surround w x) :=
  inferInstanceAs (Decidable (_ = true))

end

section

variable {dev : Device} {P : Policy World Call Reply Project} {Init : World → Prop}
  {w : World} {c a : ActiveAttempt} {log : List Entry}

/-! ### what the log says of the outbox -/

/-- The calls that change the outbox. -/
def Entry.changesOutbox : Entry → Bool
  | .call (.saveOutbox _) _ | .call (.removeOutbox _ _) _ => true
  | _ => false

/-- What the answer to a call says of the outbox. -/
def Entry.Shows (w : World) : Entry → Prop
  | .call (.outboxExists j x) (some false) => w.outboxFile j x = none
  | .call (.removeOutbox j x) (some true) => w.outboxFile j x = none
  | .call (.reportJob o) _ => w.outboxFile o.jobId o.attemptId = some o
  | _ => True

theorem Entry.Shows.congr {t : World} {y : Entry} (h : y.Shows w) (ho : t.outbox = w.outbox) :
    y.Shows t := by
  unfold Entry.Shows at *
  split <;> simp_all [outboxFile_congr ho]

/-- What was said of the outbox stays true until it is changed, and a file that was not there has not
come back. -/
structure Witnessed (w : World) : Prop where
  shown : ∀ pre y rest, w.log = pre ++ y :: rest → (∀ z ∈ pre, z.changesOutbox = false) → y.Shows w
  gone : ∀ rest, w.log = .call .activeExists (some false) :: rest → w.active = none

theorem Witnessed.cons {t : World} {e : Entry} (h : Witnessed w) (hl : t.log = e :: w.log)
    (he : e.Shows t) (ho : e.changesOutbox = false → t.outbox = w.outbox)
    (hg : e = .call .activeExists (some false) → t.active = none) : Witnessed t := by
  refine ⟨fun pre y rest hp hpre => ?_, fun rest hp => ?_⟩
  · rw [hl] at hp
    rcases pre with _ | ⟨z, pre⟩
    · obtain ⟨rfl, -⟩ := List.cons.inj hp
      exact he
    · obtain ⟨rfl, hw⟩ := List.cons.inj hp
      refine (h.shown pre y rest hw fun z hz => hpre z (.tail _ hz)).congr (ho ?_)
      exact hpre _ (.head _)
  · rw [hl] at hp
    exact hg (List.cons.inj hp).1

theorem outbox_kept {e : Call} {x : Reply} (h : (Entry.call e none).changesOutbox = false) :
    (effect dev w e x).outbox = w.outbox := by
  cases e with
  | saveOutbox | removeOutbox => cases h
  | lock => cases x <;> rfl
  | saveActive | removeActive | saveHistory =>
    simp only [effect]
    split_ifs <;> rfl
  | _ => rfl

theorem outboxFile_dropped (w : World) (j x : String) :
    (w.dropOutbox j x).outboxFile j x = none := by
  unfold World.dropOutbox World.outboxFile
  rw [List.find?_filter, List.find?_eq_none]
  intro o _
  simp

/-- The answer to a call is true of the outbox it leaves. -/
theorem shows_serve {e : Call} {x : Reply} {r : Answer e} (hn : Needs dev w e)
    (hr : answer dev w e x = some r) : (Entry.call e (some r)).Shows (effect dev w e x) := by
  cases e with
  | outboxExists j y =>
    cases x <;> cases hr
    cases hf : w.outboxFile j y with
    | none => exact hf
    | some o => trivial
  | removeOutbox j y =>
    cases x <;> cases hr
    · exact outboxFile_dropped w j y
    · trivial
  | reportJob o =>
    have : effect dev w (.reportJob o) x = w := effect_quiet rfl x
    rw [this]
    exact hn.demand.1
  | _ => trivial

theorem witnessed_invariant (hstart : Starts Init) : Invariant dev P Init Witnessed where
  init w hw := by
    have hl := (hstart w hw).2
    refine ⟨fun pre y rest hp => ?_, fun rest hp => ?_⟩
    · rw [hl] at hp
      cases pre <;> cases hp
    · rw [hl] at hp
      cases hp
  reply w e x r t hI hk hn hp hs := by
    obtain ⟨hr, rfl⟩ := serve_inv hs
    refine hI.cons (log_serve hs) ((shows_serve hn hr).congr rfl) (fun he => ?_) fun he => ?_
    · exact outbox_kept (by cases e <;> first | rfl | cases he)
    · cases he
      cases x <;> simp only [answer] at hr
      case ok =>
        have hn : w.active.isSome = false := Option.some.inj hr
        exact Option.isSome_eq_false_iff.1 hn |> Option.isNone_iff_eq_none.1
      all_goals cases hr
  lose w e hI hk hn hp := by
    refine hI.cons (e := .call e none) rfl ?_ (fun _ => rfl) fun he => by cases he
    cases e <;> first | trivial | exact hn.demand.1
  stop w hI := hI.cons (e := .stopped) rfl trivial (fun _ => rfl) fun he => by cases he
  project w x t hI hp hx := by
    obtain ⟨-, -, ho, -, hg, ha⟩ := project_frame hx
    refine ⟨fun pre y rest h hpre => ?_, fun rest h => ?_⟩
    · exact (hI.shown pre y rest (hg ▸ h) hpre).congr ho
    · have hn := hI.gone rest (hg ▸ h)
      rcases ha with ha | ha
      · exact ha.trans hn
      · exact ha

/-! ### the attempt of a pending report -/

/-- The attempt has an outcome of a known kind, or is finalized. -/
def Concluded (c : ActiveAttempt) : Prop :=
  c.phase = .finalizedLocal ∨
    (c.phase = .outcomeRecorded ∧ ∃ exec, c.executor = some exec ∧
      ∃ k ∈ knownKinds, exec.runtimeCompletionKind = some k)

/-- The attempt in the file is the one each pending report is of. -/
def Paired (dev : Device) (w : World) : Prop :=
  ∀ o ∈ w.outbox, ∃ c, Holds dev w c ∧ c.jobId = o.jobId ∧ c.attemptId = o.attemptId ∧ Concluded c

theorem Concluded.phase (h : Concluded c) : c.phase ∈ [.outcomeRecorded, .finalizedLocal] := by
  rcases h with h | ⟨h, -⟩ <;> simp [h]

/-- An edit of a concluded attempt finalizes it. -/
theorem Concluded.edit (h : Concluded c) (he : Edit dev w c a) : Concluded a := by
  rcases h with h | ⟨h, exec, hx, k, hk, hkind⟩
  · exact absurd h he.not_finalized
  · cases he with
    | finalize => exact .inl rfl
    | recover hR => exact absurd hkind (hR.unknown h exec hx k hk)
    | advance hA => cases hA <;> simp_all
    | _ hp => exact absurd (h.symm.trans hp) (by decide)

theorem VerdictOf.known {exec : AttemptExecutorState} {v : Verdict} (h : VerdictOf c exec v) :
    ∃ k ∈ knownKinds, exec.runtimeCompletionKind = some k := by
  cases h with
  | failed hk | completed hk =>
    simp only [List.mem_cons, List.not_mem_nil, or_false] at hk
    rcases hk with hk | hk | hk <;> exact ⟨_, by decide, hk⟩
  | delivered hk =>
    simp only [List.mem_cons, List.not_mem_nil, or_false] at hk
    rcases hk with hk | hk | hk | hk <;> exact ⟨_, by decide, hk⟩
  | timedOut hk | interrupted hk | notStarted hk => exact ⟨_, by decide, hk⟩

theorem Paired.outbox_nil (h : Paired dev w) (ha : w.active = none) : w.outbox = [] := by
  rw [List.eq_nil_iff_forall_not_mem]
  intro o ho
  obtain ⟨c, hc, -⟩ := h o ho
  exact hc.active ha

/-- When the attempt is removed no report of it is pending. -/
theorem Paired.removed (h : Paired dev w) (hW : Witnessed w) (hn : Needs dev w .removeActive) :
    w.outbox = [] := by
  rw [List.eq_nil_iff_forall_not_mem]
  intro o ho
  obtain ⟨c, hc, hj, hid, hcon⟩ := h o ho
  have hfile : ∀ j x, c.jobId = j → c.attemptId = x → w.outboxFile j x ≠ none := by
    rintro j x rfl rfl hnone
    unfold World.outboxFile at hnone
    exact List.find?_eq_none.1 hnone o ho (by simp [World.key, hj, hid])
  have hrem : Removes dev w w.log := hn.demand
  revert hrem
  generalize hl : w.log = log
  intro hrem
  cases hrem with
  | delivered o' h' rest hclose =>
    have hnone : w.outboxFile o'.jobId o'.attemptId = none :=
      hW.shown [] _ _ hl fun z hz => by cases hz
    cases hclose with
    | accepted b now rest hl' hb hi =>
      obtain rfl := hb.unique hc
      exact hfile _ _ hi.1 hi.2 hnone
    | refused b detail code message now rest hs hi =>
      obtain rfl := hs.of_holds hc
      exact hfile _ _ hi.1 hi.2 hnone
  | converged h' rest hconv =>
    cases hconv with
    | cancelled b now rest hl' hb hp =>
      obtain rfl := hb.unique hc
      have := hcon.phase
      revert hp this
      cases c.phase <;> simp [convergingPhases]
  | rejected b code message rest hl' hs hp =>
    obtain rfl := hs.of_holds hc
    have := hcon.phase
    simp [hp] at this
  | recorded b h' rest hl' hs hp hi hd =>
    obtain rfl := hs.of_holds hc
    refine hfile _ _ rfl rfl (hW.shown [_, _] _ _ hl fun z hz => ?_)
    simp only [List.mem_cons, List.not_mem_nil, or_false] at hz
    rcases hz with rfl | rfl <;> rfl

theorem active_kept {e : Call} {x : Reply} (hs : ∀ a, e ≠ .saveActive a) (hr : e ≠ .removeActive) :
    (effect dev w e x).active = w.active := by
  cases e with
  | saveActive a => exact absurd rfl (hs a)
  | removeActive => exact absurd rfl hr
  | lock => cases x <;> rfl
  | saveOutbox | removeOutbox | saveHistory =>
    simp only [effect]
    split_ifs <;> rfl
  | _ => rfl

theorem Paired.serve {e : Call} {x : Reply} {r : Answer e} {t : World} (h : Paired dev w)
    (hW : Witnessed w) (hn : Needs dev w e) (hp : (guarded dev).reply w e x)
    (hs : serve dev w e x = some (r, t)) : Paired dev t := by
  obtain ⟨hr, ht⟩ := serve_inv hs
  have hout : t.outbox = (effect dev w e x).outbox := by rw [ht]; rfl
  have hact : t.active = (effect dev w e x).active := by rw [ht]; rfl
  intro o ho
  rw [hout] at ho
  by_cases hsave : ∃ a, e = .saveActive a
  · obtain ⟨a, rfl⟩ := hsave
    have ho : o ∈ w.outbox := by
      rcases mem_outbox_effect ho with ho | ho
      · exact ho
      · cases ho
    obtain ⟨c, hc, hj, hid, hcon⟩ := h o ho
    rcases active_effect dev w (.saveActive a) x with ha | ha | ⟨b, hb, hv, ha⟩
    · exact ⟨c, (holds_of_active (hact.trans ha)).2 hc, hj, hid, hcon⟩
    · refine absurd ha ?_
      simp only [effect]
      split_ifs
      · simp
      · exact hc.active
    · cases hb
      rcases hn.demand.2 with ⟨b, hb, -, he⟩ | ⟨hnone, -⟩
      · obtain rfl := hb.unique hc
        refine ⟨a, holds_of_saved (hact.trans ha) (ActiveAttempt.validate_ok_iff.1 hv)
          (he.not_legacy hc.valid.2), ?_, ?_, hcon.edit he⟩
        · exact he.identity.2.trans hj
        · exact he.identity.1.trans hid
      · exact absurd hnone hc.active
  · by_cases hrem : e = .removeActive
    · subst hrem
      have ho : o ∈ w.outbox := by
        rcases mem_outbox_effect ho with ho | ho
        · exact ho
        · cases ho
      rw [h.removed hW hn] at ho
      cases ho
    · have hsame : t.active = w.active :=
        hact.trans (active_kept (fun a ha => hsave ⟨a, ha⟩) hrem)
      rcases mem_outbox_effect ho with ho | rfl
      · obtain ⟨c, hc, hrest⟩ := h o ho
        exact ⟨c, (holds_of_active hsame).2 hc, hrest⟩
      · have hp : maySave dev w (.saveOutbox o) = true := hp
        simp only [maySave] at hp
        split at hp
        next c hc =>
          simp only [Bool.and_eq_true, beq_iff_eq] at hp
          obtain ⟨c', exec, v, _, _, _, _, hS, -, -, hph, hx, hv, -⟩ := hn.demand
          obtain rfl := hS.of_holds hc
          exact ⟨c, (holds_of_active hsame).2 hc, hp.1, hp.2, .inr ⟨hph, exec, hx, hv.known⟩⟩
        next => cases hp

theorem paired_invariant (hstart : Starts Init) (hinit : ∀ w, Init w → Paired dev w) :
    Invariant dev (guarded dev) Init fun w => Witnessed w ∧ Paired dev w where
  init w hw := ⟨(@witnessed_invariant dev (guarded dev) _ hstart).init w hw, hinit w hw⟩
  reply w e x r t hI hk hn hp hs :=
    ⟨(witnessed_invariant hstart).reply w e x r t hI.1 hk hn hp hs, hI.2.serve hI.1 hn hp hs⟩
  lose w e hI hk hn hp := ⟨(witnessed_invariant hstart).lose w e hI.1 hk hn hp, hI.2⟩
  stop w hI := ⟨(@witnessed_invariant dev (guarded dev) _ hstart).stop w hI.1, hI.2⟩
  project w x t hI hp hx := by
    refine ⟨(witnessed_invariant hstart).project w x t hI.1 hp hx, fun o ho => ?_⟩
    obtain ⟨-, -, hout, -, -, -⟩ := project_frame hx
    rw [hout] at ho
    cases x with
    | removeActive =>
      have hp : w.outbox.isEmpty = true := hp
      rw [List.isEmpty_iff.1 hp] at ho
      cases ho
    | writeHistory nowMs =>
      obtain ⟨c, hc, hrest⟩ := hI.2 o ho
      refine ⟨c, (holds_of_active ?_).2 hc, hrest⟩
      simp only [project] at hx
      split at hx
      · cases hx
        rfl
      · cases hx

/-! ### whole runs -/

/-- `active-attempt.json` is there for each pending report, and names its job and attempt. -/
def OutboxNamed (w : World) : Prop :=
  ∀ o ∈ w.outbox, ∃ a, w.active = some a ∧ a.jobId = o.jobId ∧ a.attemptId = o.attemptId

/-- The load that follows a report, with or without the lock, finds the attempt of the report. -/
def Marked (log : List Entry) : Prop :=
  ∀ pre r held o r' before,
    log = pre ++ .call .loadActive (some (.ok r)) :: (held ++ .call (.reportJob o) r' :: before) →
    held = [] ∨ held = [.call .lock (some true)] →
    ∃ c, r = some c ∧ c.jobId = o.jobId ∧ c.attemptId = o.attemptId

/-- When there is no attempt there is nothing to flush, and the loop goes on to poll. -/
def Unblocked (log : List Entry) : Prop :=
  ∀ pre files before,
    log = pre ++ .call .listOutbox (some (.ok files)) :: .call .activeExists (some false) :: before →
    files = []

theorem Paired.named (h : Paired dev w) : OutboxNamed w := by
  intro o ho
  obtain ⟨c, hc, hj, hid, -⟩ := h o ho
  obtain ⟨a, ha, hl⟩ := hc.loaded
  obtain ⟨hid', hj'⟩ := ActiveAttempt.promote_identity (ActiveAttempt.load_ok_iff.1 hl).1
  exact ⟨a, ha, hj'.symm.trans hj, hid'.symm.trans hid⟩

/-- The load after a report. -/
theorem Paired.marked {r : Option ActiveAttempt} {x : Reply} {held before : List Entry}
    {o : OutboxRecord} {r' : Option (Answer (.reportJob o))} (h : Paired dev w) (hW : Witnessed w)
    (hr : answer dev w .loadActive x = some (.ok r))
    (hl : w.log = held ++ .call (.reportJob o) r' :: before)
    (hheld : held = [] ∨ held = [.call .lock (some true)]) :
    ∃ c, r = some c ∧ c.jobId = o.jobId ∧ c.attemptId = o.attemptId := by
  have hfile : w.outboxFile o.jobId o.attemptId = some o := by
    refine hW.shown held _ before hl fun z hz => ?_
    rcases hheld with rfl | rfl
    · cases hz
    · obtain rfl := List.mem_singleton.1 hz
      rfl
  obtain ⟨c, hc, hj, hid, -⟩ := h o (List.mem_of_find?_eq_some hfile)
  cases x <;> simp only [answer] at hr
  case ok =>
    rw [show loadFile dev w = .ok (some c) from hc] at hr
    cases hr
    exact ⟨c, rfl, hj, hid⟩
  all_goals cases hr

theorem marked_invariant (hstart : Starts Init) (hinit : ∀ w, Init w → Paired dev w) :
    Invariant dev (guarded dev) Init fun w => (Witnessed w ∧ Paired dev w) ∧ Marked w.log := by
  have hcons : ∀ e log, Marked log → (∀ r, e = .call .loadActive (some (.ok r)) →
      ∀ held o r' before, log = held ++ .call (.reportJob o) r' :: before →
        held = [] ∨ held = [.call .lock (some true)] →
        ∃ c, r = some c ∧ c.jobId = o.jobId ∧ c.attemptId = o.attemptId) → Marked (e :: log) := by
    intro e log h he pre r held o r' before hl
    rcases split_cons hl with ⟨rfl, rfl⟩ | ⟨pre, hl⟩
    · exact he r rfl held o r' before rfl
    · exact h pre r held o r' before hl
  refine log_invariant hstart (paired_invariant hstart hinit)
    (fun pre r held o r' before hl => by cases pre <;> cases hl)
    (fun log h => hcons _ log h fun r he => by cases he) fun w e r hJ hn ha h => ?_
  refine hcons _ _ h fun r₁ he held o r' before hl hheld => ?_
  cases he
  obtain ⟨x, -, hx⟩ := ha
  exact hJ.2.marked hJ.1 hx hl hheld

theorem unblocked_invariant (hstart : Starts Init) (hinit : ∀ w, Init w → Paired dev w) :
    Invariant dev (guarded dev) Init fun w => (Witnessed w ∧ Paired dev w) ∧ Unblocked w.log := by
  have hcons : ∀ e log, Unblocked log → (∀ files, e = .call .listOutbox (some (.ok files)) →
      ∀ before, log = .call .activeExists (some false) :: before → files = []) →
      Unblocked (e :: log) := by
    intro e log h he pre files before hl
    rcases split_cons hl with ⟨rfl, rfl⟩ | ⟨pre, hl⟩
    · exact he files rfl before rfl
    · exact h pre files before hl
  refine log_invariant hstart (paired_invariant hstart hinit)
    (fun pre files before hl => by cases pre <;> cases hl)
    (fun log h => hcons _ log h fun r he => by cases he) fun w e r hJ hn ha h => ?_
  refine hcons _ _ h fun files he before hl => ?_
  cases he
  obtain ⟨x, -, hx⟩ := ha
  have hnil := hJ.2.outbox_nil (hJ.1.gone before hl)
  cases x <;> simp only [answer] at hx
  case ok =>
    rw [hnil] at hx
    cases hx
    rfl
  all_goals cases hx

/-- **A pending report has its attempt** in every run in which the project command and the daemon do
not part them: no delivery misses its marker, and the loop is not kept from polling. -/
theorem outbox_named (hstart : Starts Init) (hinit : ∀ w, Init w → Paired dev w)
    {s : Machine.State World Call Answer Out}
    (hs : ((daemon dev Init).under (guarded dev)).Reachable s) :
    OutboxNamed s.store ∧ Marked s.store.log ∧ Unblocked s.store.log :=
  have hm := (daemon_inv hstart (marked_invariant hstart hinit) hs).1
  ⟨hm.1.2.named, hm.2, (daemon_inv hstart (unblocked_invariant hstart hinit) hs).1.2⟩

end

/-! ### a cancel of the operator while the report is pending -/

namespace Sample

/-- The report is in the outbox, and the server is not there to take it. -/
def unsent : List Step :=
  start ++ reports 6000 ++ finalizes ++ [.reply (.ack (.error (.http "timed out")))]

/-- A project command converges the attempt of a cancelled job. -/
def converges : List Step := [.surround (.writeHistory 9000), .surround .removeActive]

theorem paired_directory (a : ActiveAttempt) (w : World) (hw : w = directory a) :
    Paired .sample w := by
  subst hw
  exact fun o ho => by cases ho

end Sample

set_option maxRecDepth 10000 in
/-- The report waits for the server with its attempt. -/
theorem outbox_named_sample : ∃ s,
    ((daemon .sample (· = Sample.directory (Sample.done "result"))).under
        (guarded .sample)).Reachable s ∧
      s.store.outbox.length = 1 ∧
      OutboxNamed s.store ∧ Marked s.store.log ∧ Unblocked s.store.log := by
  obtain ⟨s, hs, hc⟩ := Sample.reachable_under (guarded .sample)
    (Sample.directory (Sample.done "result")) Sample.unsent
    (fun w => decide (w.outbox.length = 1)) (by decide +kernel)
  exact ⟨s, hs, of_decide_eq_true hc,
    outbox_named (Sample.starts_directory _) (Sample.paired_directory _) hs⟩

set_option maxRecDepth 10000 in
/-- The operator cancels the job while its report is pending, and a project command removes the
attempt. -/
theorem outbox_not_named :
    ¬ ∀ s, (daemon .sample (· = Sample.directory (Sample.done "result"))).system.Reachable s →
      OutboxNamed s.store := by
  intro h
  obtain ⟨s, hs, hc⟩ := Sample.reachable (Sample.directory (Sample.done "result"))
    (Sample.unsent ++ Sample.converges)
    (fun w => w.active.isNone && !w.outbox.isEmpty) (by decide +kernel)
  simp only [Bool.and_eq_true, Bool.not_eq_true', Option.isNone_iff_eq_none] at hc
  cases ho : s.store.outbox with
  | nil => simp [ho] at hc
  | cons o rest =>
    obtain ⟨a, ha, -⟩ := h s hs o (by simp [ho])
    rw [hc.1] at ha
    cases ha

end Ceo.Attempt
