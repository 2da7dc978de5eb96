import Ceo.Attempt.NotStarted

/-!
# One report for each attempt

What is sent for an attempt is what its outbox file has, and the file is
written before the attempt is finalized. A pass that is cut short in between
leaves a report behind that a flush may send and a later pass replaces;
`finalizedFirst` leaves these sends out. The result of a resource job goes out
before its report in every run.
-/

namespace Ceo.Attempt

open Ceo.Lib Ceo.Jobs
open Ceo.Connector (Phase)

section

variable {dev : Device} {P : Policy World Call Reply Project} {Init : World → Prop}
  {w : World} {c a : ActiveAttempt} {log : List Entry}

/-! ### the outbox -/

/-- The records of another attempt are found as before. -/
theorem find?_key_filter {i x j y : String} (l : List OutboxRecord) (h : ¬ (i = j ∧ x = y)) :
    (l.filter fun o => !World.key i x o).find? (World.key j y) = l.find? (World.key j y) := by
  rw [List.find?_filter]
  congr 1
  funext o
  by_cases ho : o.jobId = j ∧ o.attemptId = y
  · have : ¬ (j = i ∧ y = x) := fun hji => h ⟨hji.1.symm, hji.2.symm⟩
    simpa [World.key, ho.1, ho.2] using not_and_or.1 this
  · have : World.key j y o = false := by simpa [World.key] using ho
    simp [this]

theorem outboxFile_put_ne {o : OutboxRecord} {j x : String}
    (h : ¬ (o.jobId = j ∧ o.attemptId = x)) :
    (w.putOutbox o).outboxFile j x = w.outboxFile j x := by
  unfold World.putOutbox World.outboxFile
  rw [List.find?_cons_of_neg (by simpa [World.key] using h), find?_key_filter _ h]

theorem outboxFile_drop {o : OutboxRecord} {i x j y : String}
    (h : (w.dropOutbox i x).outboxFile j y = some o) : w.outboxFile j y = some o := by
  unfold World.dropOutbox World.outboxFile at *
  by_cases hij : i = j ∧ x = y
  · obtain ⟨rfl, rfl⟩ := hij
    rw [List.find?_filter] at h
    have hn := List.find?_some h
    simp at hn
  · rwa [find?_key_filter _ hij] at h

/-- Whatever a call does to the outbox: it stays, or a record is put into it or taken out. -/
theorem outbox_effect (dev : Device) (w : World) (e : Call) (x : Reply) :
    (effect dev w e x).outbox = w.outbox ∨
      (∃ o, e = .saveOutbox o ∧ (effect dev w e x).outbox = (w.putOutbox o).outbox) ∨
      ∃ j y, (effect dev w e x).outbox = (w.dropOutbox j y).outbox := by
  cases e with
  | saveOutbox o =>
    simp only [effect]
    split_ifs
    · exact .inr (.inl ⟨o, rfl, rfl⟩)
    · exact .inl rfl
  | removeOutbox j y =>
    simp only [effect]
    split_ifs
    · exact .inr (.inr ⟨j, y, rfl⟩)
    · exact .inl rfl
  | lock => cases x <;> exact .inl rfl
  | saveActive | removeActive | saveHistory =>
    simp only [effect]
    split_ifs <;> exact .inl rfl
  | _ => exact .inl rfl

/-! ### what has been sent -/

section

variable (dev : Device)

/-- A report of the attempt in the file goes out after the attempt was finalized. -/
def maySend (w : World) : Call → Bool
  | .reportJob o =>
    match loadFile dev w with
    | .ok (some c) =>
      !(c.jobId == o.jobId && c.attemptId == o.attemptId) || c.phase == .finalizedLocal
    | _ => true
  | _ => true

def finalizedFirst : Policy World Call Reply Project where
  reply w e _ := maySend dev w e = true
  lose w e := maySend dev w e = true
  crash _ := True
  surround _ _ := True

instance (w : World) (e : Call) (x : Reply) : Decidable ((finalizedFirst dev).reply w e x) :=
  inferInstanceAs (Decidable (_ = true))

instance (w : World) (e : Call) : Decidable ((finalizedFirst dev).lose w e) :=
  inferInstanceAs (Decidable (_ = true))

instance (w : World) : Decidable ((finalizedFirst dev).crash w) := .isTrue trivial

instance (w : World) (x : Project) : Decidable ((finalizedFirst dev).surround w x) := .isTrue trivial

end

/-- The report `o` was sent, whether it got an answer or not. -/
def Sent (log : List Entry) (o : OutboxRecord) : Prop := ∃ r, .call (.reportJob o) r ∈ log

/-- All that is sent for an attempt is one report. -/
def OneReport (log : List Entry) : Prop :=
  ∀ o o', Sent log o → Sent log o' → o.jobId = o'.jobId → o.attemptId = o'.attemptId → o = o'

theorem Sent.of_cons {e : Entry} {o : OutboxRecord} (h : Sent (e :: log) o) :
    Sent log o ∨ ∃ r, e = .call (.reportJob o) r := by
  obtain ⟨r, hr⟩ := h
  rcases List.mem_cons.1 hr with hr | hr
  · exact .inr ⟨r, hr.symm⟩
  · exact .inl ⟨r, hr⟩

/-- An attempt that something was sent for is finalized. -/
def Delivering (log : List Entry) (c : ActiveAttempt) : Prop :=
  ∀ o, Sent log o → o.jobId = c.jobId → o.attemptId = c.attemptId → c.phase = .finalizedLocal

theorem Edit.not_finalized (h : Edit dev w c a) : c.phase ≠ .finalizedLocal := by
  intro hp
  cases h with
  | advance hA => cases hA <;> simp_all
  | recover hR =>
    have := hR.phase
    rw [hp] at this
    cases this
  | _ hp' => exact absurd (hp.symm.trans hp') (by decide)

/-! ### the result target of an attempt -/

/-- An attempt keeps the result target of its claim. -/
def Targeted (log : List Entry) (c : ActiveAttempt) : Prop :=
  ∀ b, OnRecord log b → b.attemptId = c.attemptId → b.phase ≠ .claimIntent →
    c.phase ≠ .claimIntent ∧ b.resultTarget = c.resultTarget

theorem Edit.targeted (h : Edit dev w c a) :
    a.phase ≠ .claimIntent ∧ (c.phase ≠ .claimIntent → a.resultTarget = c.resultTarget) := by
  cases h with
  | claim hp => exact ⟨by simp [ActiveAttempt.inPhase], fun hc => absurd hp hc⟩
  | advance hA => cases hA <;> exact ⟨(by simp [ActiveAttempt.inPhase]), fun _ => rfl⟩
  | unprepared hp i => cases i <;> exact ⟨by simp [ActiveAttempt.inPhase], fun _ => rfl⟩
  | ready hp prep b target hl ha =>
    unfold ActiveAttempt.ready
    cases prep.dispatch <;> exact ⟨by simp [ActiveAttempt.inPhase], fun _ => rfl⟩
  | clock hp | identify hp | count hp | reject hp | doubt hp | working hp | seen hp =>
    exact ⟨fun h' => absurd (hp.symm.trans h') (by decide), fun _ => rfl⟩
  | _ => exact ⟨by simp [ActiveAttempt.inPhase, ActiveAttempt.finalized], fun _ => rfl⟩

theorem chronicled_targeted : Chronicled dev P Init (fun _ => True) Targeted where
  init w c _ _ b hb := by rcases hb with hb | hb <;> cases hb
  stop log c h b hb := by
    rcases hb.of_cons with hb | hb | hb
    · exact h b hb
    · cases hb
    · cases hb
  call w e r c _ hI hn ha hc hne b hb hid hp := by
    rcases hb.of_cons with hb | hb | hb
    · exact hI.file c hc b hb hid hp
    · exact absurd hb (hne b)
    · cases hb
      obtain ⟨x, -, hx⟩ := ha
      obtain rfl := hc.unique (answer_loadActive hx)
      exact ⟨hp, rfl⟩
  edit w c a r _ hI hn ha hc hr he b hb hid hp := by
    rcases hb.of_cons with hb | hb | hb
    · obtain ⟨hcp, ht⟩ := hI.file c hc b hb (hid.trans he.identity.1) hp
      exact ⟨he.targeted.1, ht.trans (he.targeted.2 hcp).symm⟩
    · cases hb
      exact ⟨hp, rfl⟩
    · cases hb
  fresh w a r _ ht hf hu b hb hid hp := by
    rcases hb.of_cons with hb | hb | hb
    · exact absurd (hid ▸ hb.used ht) hu
    · cases hb
      refine absurd ?_ hp
      have : a = freshIntent dev a.jobId a.workspaceId a.targetId a.attemptId a.claimToken
        a.frozenAgentId := by simpa [isFreshIntent] using hf
      rw [this]
      rfl
    · cases hb

/-- The same of any two records of the log. -/
def SameTarget (log : List Entry) : Prop :=
  ∀ b b', OnRecord log b → OnRecord log b' → b.attemptId = b'.attemptId → b.phase ≠ .claimIntent →
    b'.phase ≠ .claimIntent → b.resultTarget = b'.resultTarget

/-- A record that is new agrees with those before it. -/
theorem Chronicle.sameTarget {e : Call} {r : Option (Answer e)} {b n : ActiveAttempt}
    (h : Chronicle dev Targeted w) (hn : Needs dev w e) (ha : Allowed dev P w e r)
    (hnew : OnRecord [.call e r] n) (hb : OnRecord w.log b) (hid : b.attemptId = n.attemptId)
    (hp : b.phase ≠ .claimIntent) : b.resultTarget = n.resultTarget := by
  rcases hnew.of_singleton with he | he
  · cases he
    rcases hn.demand.2 with ⟨c, hc, -, hE⟩ | ⟨-, -, hu⟩
    · obtain ⟨hcp, ht⟩ := h.file c hc b hb (hid.trans hE.identity.1) hp
      exact ht.trans (hE.targeted.2 hcp).symm
    · exact absurd (hid ▸ hb.used h.traced) hu
  · cases he
    obtain ⟨x, -, hx⟩ := ha
    exact (h.file n (answer_loadActive hx) b hb hid hp).2

theorem OnRecord.cons_cases {e : Entry} {b : ActiveAttempt} (h : OnRecord (e :: log) b) :
    OnRecord log b ∨ OnRecord [e] b := by
  rcases h.of_cons with h | h | h
  · exact .inl h
  · exact .inr (.inl (h ▸ .head _))
  · exact .inr (.inr (h ▸ .head _))

theorem sameTarget_invariant (hstart : Starts Init) :
    Invariant dev P Init fun w => Chronicle dev Targeted w ∧ SameTarget w.log := by
  refine log_invariant hstart (chronicle_invariant hstart chronicled_targeted)
    (fun b b' hb => by rcases hb with hb | hb <;> cases hb) (fun log h b b' hb hb' => ?_) ?_
  · have hold : ∀ y, OnRecord (.stopped :: log) y → OnRecord log y := fun y hy => by
      rcases hy.of_cons with hy | hy | hy
      · exact hy
      · cases hy
      · cases hy
    exact h b b' (hold b hb) (hold b' hb')
  intro w e r hJ hn ha h b b' hb hb' hid hp hp'
  rcases hb.cons_cases with hb | hb <;> rcases hb'.cons_cases with hb' | hb'
  · exact h b b' hb hb' hid hp hp'
  · exact hJ.sameTarget hn ha hb' hb hid hp
  · exact (hJ.sameTarget hn ha hb hb' hid.symm hp').symm
  · rcases hb.of_singleton with hb | hb <;> rcases hb'.of_singleton with hb' | hb' <;>
      rw [hb] at hb' <;> cases hb' <;> rfl

/-! ### what the outbox has -/

/-- The report of a completed resource job has the result with it. -/
def Delivers (c : ActiveAttempt) (o : OutboxRecord) : Prop :=
  isResource c = true → o.report.executionStatus = .completed →
    o.managedResult.isSome = true ∧ o.managedResultSha256.isSome = true

theorem Delivers.of_target {o : OutboxRecord} (h : Delivers c o)
    (ht : a.resultTarget = c.resultTarget) : Delivers a o := fun hr => by
  refine h ?_
  unfold isResource at *
  rw [← ht]
  exact hr

/-- The records of the outbox are those of attempts that have been claimed, and of these. -/
structure Filed (dev : Device) (w : World) : Prop where
  used : ∀ o ∈ w.outbox, o.attemptId ∈ w.used
  file : ∀ c, Holds dev w c → ∀ o ∈ w.outbox, o.attemptId = c.attemptId →
    c.phase ≠ .claimIntent ∧ Delivers c o

structure Backed (dev : Device) (w : World) : Prop extends Filed dev w where
  record : ∀ b, OnRecord w.log b → b.phase ≠ .claimIntent → ∀ o ∈ w.outbox,
    o.attemptId = b.attemptId → Delivers b o
  sent : ∀ o, Sent w.log o → o.attemptId ∈ w.used

/-- The record that a pass puts into the outbox. -/
theorem Reported.delivers {o : OutboxRecord} (h : Reported dev w o) :
    ∃ c, Sound dev c w ∧ Reading c w.log ∧ o.attemptId = c.attemptId ∧ o.jobId = c.jobId ∧
      c.attemptId ∈ w.used ∧ c.phase = .outcomeRecorded ∧ Delivers c o := by
  obtain ⟨c, exec, v, closed, startedMs, completedMs, createdAtMs, hs, hu, hr, hp, -, hv, rfl⟩ := h
  refine ⟨c, hs, hr, rfl, rfl, hu, hp, fun hres hcomp => ?_⟩
  have hcomp : v.status = .completed := hcomp
  cases hv with
  | completed hk he hn =>
    rw [hres] at hn
    cases hn
  | delivered => exact ⟨rfl, rfl⟩
  | _ => cases hcomp

theorem mem_outbox_effect {e : Call} {x : Reply} {o : OutboxRecord}
    (h : o ∈ (effect dev w e x).outbox) : o ∈ w.outbox ∨ e = .saveOutbox o := by
  rcases outbox_effect dev w e x with hx | ⟨o', rfl, hx⟩ | ⟨j, y, hx⟩
  · exact .inl (hx ▸ h)
  · rw [hx] at h
    rcases List.mem_cons.1 h with rfl | h
    · exact .inr rfl
    · exact .inl (List.mem_filter.1 h).1
  · rw [hx] at h
    exact .inl (List.mem_filter.1 h).1

/-- A save keeps what the outbox has for the attempt. -/
theorem Backed.save (h : Backed dev w) (hn : Needs dev w (.saveActive a)) {o : OutboxRecord}
    (ho : o ∈ w.outbox) (hid : o.attemptId = a.attemptId) :
    a.phase ≠ .claimIntent ∧ Delivers a o := by
  rcases hn.demand.2 with ⟨c, hc, -, hE⟩ | ⟨-, -, hu⟩
  · obtain ⟨hp, hd⟩ := h.file c hc o ho (hid.trans hE.identity.1)
    exact ⟨hE.targeted.1, hd.of_target (hE.targeted.2 hp)⟩
  · exact absurd (hid ▸ h.used o ho) hu

theorem Backed.serve {e : Call} {x : Reply} {r : Answer e} {t : World} (h : Backed dev w)
    (hT : SameTarget w.log) (hn : Needs dev w e) (hs : serve dev w e x = some (r, t)) :
    Backed dev t := by
  obtain ⟨hr, ht⟩ := serve_inv hs
  have hlog := log_serve hs
  have hout : t.outbox = (effect dev w e x).outbox := by rw [ht]; rfl
  have hused : ∀ z ∈ w.used, z ∈ t.used := fun z hz => by
    rw [ht]
    exact used_effect w e x hz
  have hmem : ∀ o ∈ t.outbox, o ∈ w.outbox ∨ e = .saveOutbox o := fun o ho =>
    mem_outbox_effect (hout ▸ ho)
  refine ⟨⟨fun o ho => ?_, fun c hc o ho hid => ?_⟩, fun b hb hp o ho hid => ?_, fun o ho => ?_⟩
  · rcases hmem o ho with ho | rfl
    · exact hused _ (h.used o ho)
    · obtain ⟨c, -, -, hid, -, hu, -⟩ := Reported.delivers hn.demand
      exact hused _ (hid ▸ hu)
  · have hact : t.active = (effect dev w e x).active := by rw [ht]; rfl
    rcases holds_effect hact hc with hc | ⟨a, rfl, hv, ha⟩
    · rcases hmem o ho with ho | rfl
      · exact h.file c hc o ho hid
      · obtain ⟨c', hS, -, -, -, -, hp, hd⟩ := Reported.delivers hn.demand
        obtain rfl := hS.of_holds hc
        exact ⟨fun h' => absurd (hp.symm.trans h') (by decide), hd⟩
    · obtain rfl := hn.holds_saved hv ha hc
      rcases hmem o ho with ho | ho
      · exact h.save hn ho hid
      · cases ho
  · rw [hlog] at hb
    rcases hb.of_cons with hb' | hb | hb
    · rcases hmem o ho with ho | rfl
      · exact h.record b hb' hp o ho hid
      · obtain ⟨c, -, hread, hid', -, -, hcp, hd⟩ := Reported.delivers hn.demand
        refine hd.of_target (hT b c hb' (.inr hread.mem) (hid.symm.trans hid') hp fun h' => ?_)
        exact absurd (hcp.symm.trans h') (by decide)
    · cases hb
      rcases hmem o ho with ho | ho
      · exact (h.save hn ho hid).2
      · cases ho
    · cases hb
      rcases hmem o ho with ho | ho
      · exact (h.file b (answer_loadActive hr) o ho hid).2
      · cases ho
  · rw [hlog] at ho
    rcases ho.of_cons with ho | ⟨r', ho⟩
    · exact hused _ (h.sent o ho)
    · cases ho
      exact hused _ (h.used o (List.mem_of_find?_eq_some hn.demand.1))

theorem backed_invariant (hstart : Starts Init) (hinit : ∀ w, Init w → Filed dev w) :
    Invariant dev P Init fun w =>
      (Chronicle dev Targeted w ∧ SameTarget w.log) ∧ Backed dev w where
  init w hw := by
    refine ⟨(sameTarget_invariant (P := P) hstart).init w hw, hinit w hw, fun b hb => ?_, fun o ho => ?_⟩
    · rw [(hstart w hw).2] at hb
      rcases hb with hb | hb <;> cases hb
    · rw [(hstart w hw).2] at ho
      obtain ⟨r, hr⟩ := ho
      cases hr
  reply w e x r t hI hk hn hp hs :=
    ⟨(sameTarget_invariant hstart).reply w e x r t hI.1 hk hn hp hs, hI.2.serve hI.1.2 hn hs⟩
  lose w e hI hk hn hp := by
    refine ⟨(sameTarget_invariant hstart).lose w e hI.1 hk hn hp, ⟨hI.2.used, hI.2.file⟩,
      fun b hb => ?_, fun o ho => ?_⟩
    · rcases hb.of_cons with hb | hb | hb
      · exact hI.2.record b hb
      · cases hb
      · cases hb
    · rcases ho.of_cons with ho | ⟨r, ho⟩
      · exact hI.2.sent o ho
      · cases ho
        exact hI.2.used o (List.mem_of_find?_eq_some hn.demand.1)
  stop w hI := by
    refine ⟨(sameTarget_invariant (P := P) hstart).stop w hI.1, ⟨hI.2.used, hI.2.file⟩,
      fun b hb => ?_, fun o ho => ?_⟩
    · rcases hb.of_cons with hb | hb | hb
      · exact hI.2.record b hb
      · cases hb
      · cases hb
    · rcases ho.of_cons with ho | ⟨r, ho⟩
      · exact hI.2.sent o ho
      · cases ho
  project w x t hI hp hx := by
    obtain ⟨-, -, ho, hu, hg, -⟩ := project_frame hx
    refine ⟨(sameTarget_invariant hstart).project w x t hI.1 hp hx, ⟨?_, ?_⟩, ?_, ?_⟩
    · rw [ho, hu]
      exact hI.2.used
    · rw [ho]
      exact fun c hc => hI.2.file c (hc.frame (.of_project hx))
    · rw [ho, hg]
      exact hI.2.record
    · rw [hg, hu]
      exact hI.2.sent

/-- The report of a completed resource job goes out when its result was acknowledged just before,
with the digest that is in the same record. -/
def ResultsFirst (log : List Entry) : Prop :=
  ∀ pre o r before, log = pre ++ .call (.reportJob o) r :: before →
    o.report.executionStatus = .completed →
    (∃ b, OnRecord before b ∧ b.attemptId = o.attemptId ∧ b.phase ≠ .claimIntent ∧
      isResource b = true) →
    ∃ result digest rest, o.managedResult = some result ∧ o.managedResultSha256 = some digest ∧
      before = .call (.submitJobResult o) (some (.ok ())) :: rest

theorem resultsFirst_invariant (hstart : Starts Init) (hinit : ∀ w, Init w → Filed dev w) :
    Invariant dev P Init fun w =>
      ((Chronicle dev Targeted w ∧ SameTarget w.log) ∧ Backed dev w) ∧ ResultsFirst w.log := by
  have hcons : ∀ e log, ResultsFirst log → (∀ o r, e = .call (.reportJob o) r →
      o.report.executionStatus = .completed → (∃ b, OnRecord log b ∧ b.attemptId = o.attemptId ∧
        b.phase ≠ .claimIntent ∧ isResource b = true) →
      ∃ result digest rest, o.managedResult = some result ∧ o.managedResultSha256 = some digest ∧
        log = .call (.submitJobResult o) (some (.ok ())) :: rest) → ResultsFirst (e :: log) := by
    intro e log h he pre o r before hl
    rcases split_cons hl with ⟨rfl, rfl⟩ | ⟨pre, hl⟩
    · exact he o r rfl
    · exact h pre o r before hl
  refine log_invariant hstart (backed_invariant hstart hinit)
    (fun pre o r before hl => by cases pre <;> cases hl)
    (fun log h => hcons _ log h fun o r he => by cases he) fun w e r hJ hn ha h => ?_
  refine hcons _ _ h fun o r' he hcomp ⟨b, hb, hid, hp, hres⟩ => ?_
  cases he
  obtain ⟨hfile, hfirst⟩ := hn.demand
  have hd := hJ.2.record b hb hp o (List.mem_of_find?_eq_some hfile) hid.symm hres hcomp
  obtain ⟨rest, hrest⟩ := hfirst hd.1 hd.2
  obtain ⟨result, hresult⟩ := Option.isSome_iff_exists.1 hd.1
  obtain ⟨digest, hdigest⟩ := Option.isSome_iff_exists.1 hd.2
  exact ⟨result, digest, rest, hresult, hdigest, hrest⟩

/-! ### one report -/

/-- Nothing was reported between the load and now. -/
theorem Reading.split (h : Reading c log) :
    ∃ pre rest, log = pre ++ .call .loadActive (some (.ok (some c))) :: rest ∧
      ∀ y ∈ pre, y.isReading = false := by
  obtain ⟨-, pre, rest, hl, hpre⟩ := List.find?_eq_some_iff_append.1 h
  exact ⟨pre, rest, hl, fun y hy => by simpa using hpre y hy⟩

theorem chronicled_delivering :
    Chronicled dev (finalizedFirst dev) Init
      (fun w => (Chronicle dev Targeted w ∧ SameTarget w.log) ∧ Backed dev w) Delivering where
  init w c _ _ o ho := by
    obtain ⟨r, hr⟩ := ho
    cases hr
  stop log c h o ho := by
    rcases ho.of_cons with ho | ⟨r, ho⟩
    · exact h o ho
    · cases ho
  call w e r c _ hI hn ha hc hne o ho hj hid := by
    rcases ho.of_cons with ho | ⟨r', ho⟩
    · exact hI.file c hc o ho hj hid
    · cases ho
      have hs : maySend dev w (.reportJob o) = true := by
        cases r' with
        | none => exact ha
        | some r => exact ha.choose_spec.1
      unfold maySend at hs
      rw [show loadFile dev w = .ok (some c) from hc] at hs
      simpa [hj, hid] using hs
  edit w c a r _ hI hn ha hc hr he o ho hj hid := by
    rcases ho.of_cons with ho | ⟨r', ho⟩
    · exact absurd (hI.file c hc o ho (hj.trans he.identity.2) (hid.trans he.identity.1))
        he.not_finalized
    · cases ho
  fresh w a r hK _ _ hu o ho _ hid := by
    rcases ho.of_cons with ho | ⟨r', ho⟩
    · exact absurd (hid ▸ hK.2.sent o ho) hu
    · cases ho

/-- A pass that makes a report has sent none for its attempt. -/
theorem Chronicle.unsent (h : Chronicle dev Delivering w) (hr : Reading c w.log)
    (hp : c.phase = .outcomeRecorded) {o : OutboxRecord} (ho : Sent w.log o) :
    ¬ (o.jobId = c.jobId ∧ o.attemptId = c.attemptId) := by
  rintro ⟨hj, hid⟩
  obtain ⟨pre, rest, hl, hpre⟩ := hr.split
  obtain ⟨r, hr⟩ := ho
  rw [hl] at hr
  rcases List.mem_append.1 hr with hr | hr
  · cases hpre _ hr
  · rcases List.mem_cons.1 hr with hr | hr
    · cases hr
    · have := h.loads pre c rest hl o ⟨r, hr⟩ hj hid
      exact absurd (hp.symm.trans this) (by decide)

/-- What was sent is what the outbox has, as long as it has a record of the attempt. -/
structure Single (w : World) : Prop where
  kept : ∀ o, Sent w.log o → ∀ o', w.outboxFile o.jobId o.attemptId = some o' → o' = o
  one : OneReport w.log

theorem outboxFile_congr {t : World} (h : t.outbox = w.outbox) (j x : String) :
    t.outboxFile j x = w.outboxFile j x := by
  unfold World.outboxFile
  rw [h]

theorem Single.sends {e : Call} {r : Option (Answer e)} (h : Single w) (hn : Needs dev w e) :
    OneReport (.call e r :: w.log) := by
  have hnew : ∀ o o', e = .reportJob o → Sent w.log o' → o.jobId = o'.jobId →
      o.attemptId = o'.attemptId → o = o' := by
    rintro o o' rfl ho' hj hid
    have hfile := hn.demand.1
    rw [hj, hid] at hfile
    exact h.kept o' ho' o hfile
  intro o o' ho ho' hj hid
  rcases ho.of_cons with hs | ⟨r₁, hs⟩ <;> rcases ho'.of_cons with hs' | ⟨r₂, hs'⟩
  · exact h.one o o' hs hs' hj hid
  · cases hs'
    exact (hnew o' o rfl hs hj.symm hid.symm).symm
  · cases hs
    exact hnew o o' rfl hs' hj hid
  · rw [hs] at hs'
    cases hs'
    rfl

theorem Single.serve {e : Call} {x : Reply} {r : Answer e} {t : World} (h : Single w)
    (hC : Chronicle dev Delivering w) (hn : Needs dev w e) (hs : serve dev w e x = some (r, t)) :
    Single t := by
  obtain ⟨hr, ht⟩ := serve_inv hs
  have hlog := log_serve hs
  have hout : t.outbox = (effect dev w e x).outbox := by rw [ht]; rfl
  refine ⟨fun o ho o' ho' => ?_, hlog ▸ h.sends hn⟩
  rw [outboxFile_congr hout] at ho'
  rw [hlog] at ho
  rcases ho.of_cons with hsent | ⟨r', hsent⟩
  · rcases outbox_effect dev w e x with he | ⟨o₁, rfl, he⟩ | ⟨j, y, he⟩
    · rw [outboxFile_congr he] at ho'
      exact h.kept o hsent o' ho'
    · rw [outboxFile_congr he] at ho'
      obtain ⟨c, -, hread, hid, hj, -, hp, -⟩ := Reported.delivers hn.demand
      have hne := hC.unsent hread hp hsent
      rw [outboxFile_put_ne fun h' => hne ⟨h'.1.symm.trans hj, h'.2.symm.trans hid⟩] at ho'
      exact h.kept o hsent o' ho'
    · rw [outboxFile_congr he] at ho'
      exact h.kept o hsent o' (outboxFile_drop ho')
  · cases hsent
    have hfile := hn.demand.1
    rw [effect_quiet rfl, hfile] at ho'
    cases ho'
    rfl

/-- What is known of every run before the reports are looked at. -/
def Steady (dev : Device) (w : World) : Prop :=
  ((Chronicle dev Targeted w ∧ SameTarget w.log) ∧ Backed dev w) ∧ Chronicle dev Delivering w

theorem steady_invariant (hstart : Starts Init) (hinit : ∀ w, Init w → Filed dev w) :
    Invariant dev (finalizedFirst dev) Init (Steady dev) :=
  chronicle_over hstart (backed_invariant hstart hinit) chronicled_delivering

theorem single_invariant (hstart : Starts Init) (hinit : ∀ w, Init w → Filed dev w) :
    Invariant dev (finalizedFirst dev) Init fun w => Steady dev w ∧ Single w where
  init w hw := by
    have hnil : ∀ o, ¬ Sent w.log o := fun o ⟨r, hr⟩ => by
      rw [(hstart w hw).2] at hr
      cases hr
    exact ⟨(steady_invariant hstart hinit).init w hw, fun o ho => absurd ho (hnil o),
      fun o _ ho => absurd ho (hnil o)⟩
  reply w e x r t hI hk hn hp hs :=
    ⟨(steady_invariant hstart hinit).reply w e x r t hI.1 hk hn hp hs, hI.2.serve hI.1.2 hn hs⟩
  lose w e hI hk hn hp := by
    refine ⟨(steady_invariant hstart hinit).lose w e hI.1 hk hn hp, fun o ho o' ho' => ?_,
      hI.2.sends hn⟩
    rcases ho.of_cons with ho | ⟨r, ho⟩
    · exact hI.2.kept o ho o' ho'
    · cases ho
      exact Option.some.inj (ho'.symm.trans hn.demand.1)
  stop w hI := by
    have hold : ∀ o, Sent (.stopped :: w.log) o → Sent w.log o := fun o ho => by
      rcases ho.of_cons with ho | ⟨r, ho⟩
      · exact ho
      · cases ho
    exact ⟨(steady_invariant hstart hinit).stop w hI.1, fun o ho => hI.2.kept o (hold o ho),
      fun o o' ho ho' => hI.2.one o o' (hold o ho) (hold o' ho')⟩
  project w x t hI hp hx := by
    obtain ⟨-, -, ho, -, hg, -⟩ := project_frame hx
    refine ⟨(steady_invariant hstart hinit).project w x t hI.1 hp hx, fun o hs o' ho' => ?_, ?_⟩
    · rw [hg] at hs
      rw [outboxFile_congr ho] at ho'
      exact hI.2.kept o hs o' ho'
    · rw [hg]
      exact hI.2.one

/-- **One report is sent for an attempt** in every run in which reports go out for finalized attempts
only, and in every run the result of a completed resource job is acknowledged before its report. -/
theorem one_report (hstart : Starts Init) (hinit : ∀ w, Init w → Filed dev w) :
    (∀ s, ((daemon dev Init).under (finalizedFirst dev)).Reachable s → OneReport s.store.log) ∧
      ∀ s, (daemon dev Init).system.Reachable s → ResultsFirst s.store.log :=
  ⟨fun _ hs => (daemon_inv hstart (single_invariant hstart hinit) hs).1.2.one,
    fun _ hs => (daemon_inv hstart (resultsFirst_invariant hstart hinit)
      (Machine.reachable_any hs)).1.2⟩

end

/-! ### runs in which a report is made -/

namespace Sample

/-- The attempt after its agent was done. -/
def done (resultTarget : String) : ActiveAttempt :=
  ((waiting resultTarget).mapExecutor (·.complete "agent_done" 5000 none)).inPhase .outcomeRecorded

/-- The terminal is closed and the report of the pass is in the outbox. -/
def reports (closedAtMs : Int) : List Step :=
  .reply (.close (.verifiedClosed closedAtMs)) :: .reply (.time 8000) :: oks 1

/-- The attempt is finalized with its report, and the flush sends it. -/
def finalizes : List Step := oks 6

/-- The result of the job. -/
def captured : CapturedManagedResult := ⟨"envelope", digest "payload"⟩

/-- The attempt of a resource job is reported: its result goes out first. -/
def delivers : List Step :=
  start ++ [.reply .ok, .reply (.captured (.ok captured))] ++ reports 6000 ++ finalizes ++
    [.reply (.ack (.ok ())), .reply (.ack (.ok ()))]

/-- The daemon stops before the attempt is finalized. Its report goes out after the restart, when
the close of the terminal is put off, and the next pass makes another one. -/
def reportsTwice : List Step :=
  start ++ reports 6000 ++ .crash :: start ++ .reply (.close (.retryable "timeout")) :: .resume ::
    oks 2 ++ .reply (.ack (.ok ())) :: oks 3 ++ again ++ reports 7000 ++ finalizes ++
    [.reply (.ack (.ok ()))]

theorem filed_directory (a : ActiveAttempt) (w : World) (hw : w = directory a) :
    Filed .sample w := by
  subst hw
  exact ⟨fun o ho => (by cases ho), fun c hc o ho => by cases ho⟩

end Sample

/-- The reports that were sent, the last one first. -/
def sentReports (log : List Entry) : List OutboxRecord :=
  log.filterMap fun
    | .call (.reportJob o) _ => some o
    | _ => none

theorem sent_of_mem {log : List Entry} {o : OutboxRecord} (h : o ∈ sentReports log) :
    Sent log o := by
  obtain ⟨e, he, heq⟩ := List.mem_filterMap.1 h
  split at heq
  · cases heq
    exact ⟨_, he⟩
  · cases heq

set_option maxRecDepth 10000 in
/-- A resource job is reported. -/
theorem one_report_sample : ∃ s,
    ((daemon .sample (· = Sample.directory (Sample.done "resource"))).under
        (finalizedFirst .sample)).Reachable s ∧
      (sentReports s.store.log).length = 1 ∧ OneReport s.store.log ∧ ResultsFirst s.store.log := by
  obtain ⟨s, hs, hc⟩ := Sample.reachable_under (finalizedFirst .sample)
    (Sample.directory (Sample.done "resource")) Sample.delivers
    (fun w => decide ((sentReports w.log).length = 1)) (by decide +kernel)
  have h := @one_report .sample _ (Sample.starts_directory (Sample.done "resource"))
    (Sample.filed_directory _)
  exact ⟨s, hs, of_decide_eq_true hc, h.1 s hs, h.2 s hs.of_guard⟩

/-- The first and the last report are of one attempt and differ. -/
def sendsTwo (log : List Entry) : Bool :=
  match sentReports log with
  | [o, o'] => o.jobId == o'.jobId && o.attemptId == o'.attemptId && o.report != o'.report
  | _ => false

set_option maxRecDepth 10000 in
/-- The report of the pass that was cut short goes out, and then that of the next one. -/
theorem two_reports :
    ¬ ∀ s, (daemon .sample (· = Sample.directory (Sample.done "result"))).system.Reachable s →
      ∀ o o', Sent s.store.log o → Sent s.store.log o' → o.jobId = o'.jobId →
        o.attemptId = o'.attemptId → o.report = o'.report := by
  intro h
  obtain ⟨s, hs, hc⟩ := Sample.reachable (Sample.directory (Sample.done "result"))
    Sample.reportsTwice (fun w => sendsTwo w.log) (by decide +kernel)
  unfold sendsTwo at hc
  split at hc
  next o o' hsent =>
    simp only [Bool.and_eq_true, beq_iff_eq, bne_iff_ne] at hc
    refine hc.2 (h s hs o o' (sent_of_mem ?_) (sent_of_mem ?_) hc.1.1 hc.1.2)
    · rw [hsent]
      exact .head _
    · rw [hsent]
      exact .tail _ (.head _)
  next => cases hc

end Ceo.Attempt
