import Ceo.Attempt.Walk

/-!
# What the log says of the record

A relation between the calls made so far and the record of an attempt that
every edit of a pass keeps holds between the log and the record in the file,
and between what came before a load and the record that was loaded.
-/

namespace Ceo.Attempt

open Ceo.Lib Ceo.Jobs
open Ceo.Connector (Phase)

/-- An entry of a longer log is the new one or stands in the rest. -/
theorem split_cons {e y : Entry} {log pre before : List Entry} (h : e :: log = pre ++ y :: before) :
    (e = y ∧ log = before) ∨ ∃ pre', log = pre' ++ y :: before := by
  rcases List.cons_eq_append_iff.1 h with ⟨-, h⟩ | ⟨pre', -, h⟩
  · obtain ⟨rfl, rfl⟩ := List.cons.inj h
    exact .inl ⟨rfl, rfl⟩
  · exact .inr ⟨pre', h⟩

/-- The entry shows that the attempt `x` was on record. -/
inductive Entry.Names (x : String) : Entry → Prop where
  | prepare (a : ActiveAttempt) (target : LocalTarget) (r) (h : a.attemptId = x) :
      Names x (.call (.prepare a target) r)
  | dispatch (a : ActiveAttempt) (tid : String) (r) (h : a.attemptId = x) :
      Names x (.call (.dispatch a tid) r)
  | wait (a : ActiveAttempt) (tid : String) (r) (h : a.attemptId = x) :
      Names x (.call (.wait a tid) r)
  | load (c : ActiveAttempt) (h : c.attemptId = x) :
      Names x (.call .loadActive (some (.ok (some c))))
  | save (a : ActiveAttempt) (h : a.attemptId = x) :
      Names x (.call (.saveActive a) (some (.ok ())))

def Traced (w : World) : Prop := ∀ e ∈ w.log, ∀ x, Entry.Names x e → x ∈ w.used

section

variable {dev : Device} {P : Policy World Call Reply Project} {w t : World}

theorem used_effect (w : World) (e : Call) (x : Reply) {y : String} (h : y ∈ w.used) :
    y ∈ (effect dev w e x).used := by
  cases e with
  | saveActive a =>
    simp only [effect]
    split_ifs
    · exact .tail _ h
    · exact h
  | lock => cases x <;> exact h
  | removeActive | saveOutbox | removeOutbox | saveHistory =>
    simp only [effect]
    split_ifs <;> exact h
  | _ => exact h

theorem log_effect (w : World) (e : Call) (x : Reply) : (effect dev w e x).log = w.log := by
  cases e with
  | lock => cases x <;> rfl
  | saveActive | removeActive | saveOutbox | removeOutbox | saveHistory =>
    simp only [effect]
    split_ifs <;> rfl
  | _ => rfl

theorem log_serve {e : Call} {x : Reply} {r : Answer e} (h : serve dev w e x = some (r, t)) :
    t.log = .call e (some r) :: w.log := by
  obtain ⟨-, rfl⟩ := serve_inv h
  show _ :: (effect dev w e x).log = _
  rw [log_effect]

theorem answer_loadActive {x : Reply} {c : ActiveAttempt}
    (h : answer dev w .loadActive x = some (.ok (some c))) : Holds dev w c := by
  cases x <;> simp only [answer] at h
  case ok =>
    cases hl : loadFile dev w with
    | error e =>
      rw [hl] at h
      cases h
    | ok o =>
      rw [hl] at h
      cases h
      exact hl
  all_goals cases h

/-- A save that was acknowledged is on disk. -/
theorem answer_saveActive {x : Reply} {a : ActiveAttempt}
    (h : answer dev w (.saveActive a) x = some (.ok ())) :
    a.validate dev.toHost = .ok () ∧ x = .ok := by
  cases x <;> simp only [answer] at h
  case ok =>
    cases h' : a.validate dev.toHost with
    | error e =>
      rw [h'] at h
      cases h
    | ok => exact ⟨rfl, rfl⟩
  case fail =>
    cases h' : a.validate dev.toHost <;> rw [h'] at h <;> cases h
  all_goals cases h

theorem Entry.Names.used_of_needs {e : Call} {y : String} {r : Option (Answer e)}
    (hn : Needs dev w e) (hk : Known w)
    (ha : ∀ r', r = some r' → ∃ x, answer dev w e x = some r' ∧ t.used = (effect dev w e x).used)
    (hu : ∀ z ∈ w.used, z ∈ t.used) (h : Entry.Names y (.call e r)) : y ∈ t.used := by
  cases h with
  | prepare a target r h =>
    obtain ⟨⟨c, -, -, -, hc⟩, -⟩ := hn.demand
    exact hu _ (h ▸ hc)
  | dispatch a tid r h =>
    obtain ⟨_, _, _, hs⟩ := hn.demand
    exact hu _ (h ▸ hs.known)
  | wait a tid r h =>
    obtain ⟨l, rfl, -, hl⟩ := hn.demand
    exact hu _ (h ▸ hl.known)
  | load c h =>
    obtain ⟨x, hx, -⟩ := ha _ rfl
    exact hu _ (h ▸ hk.loaded (answer_loadActive hx))
  | save a h =>
    obtain ⟨x, hx, ht⟩ := ha _ rfl
    obtain ⟨hv, rfl⟩ := answer_saveActive hx
    rw [ht]
    simp only [effect, hv, Except.isOk, Except.toBool, Reply.writes, Bool.and_self, if_true]
    rw [h]
    exact .head _

/-- The entries of the log are about attempts that were on record. -/
theorem traced_serve {e : Call} {x : Reply} {r : Answer e} (h : Traced w) (hk : Known w)
    (hn : Needs dev w e) (hs : serve dev w e x = some (r, t)) : Traced t := by
  obtain ⟨hr, ht⟩ := serve_inv hs
  have hu : ∀ z ∈ w.used, z ∈ t.used := fun z hz => by
    rw [ht]
    exact used_effect w e x hz
  intro y hy z hz
  rw [log_serve hs] at hy
  rcases List.mem_cons.1 hy with rfl | hy
  · refine hz.used_of_needs hn hk (fun r' h' => ⟨x, ?_, by rw [ht]; rfl⟩) hu
    cases h'
    exact hr
  · exact hu _ (h y hy z hz)

theorem traced_lose {e : Call} (h : Traced w) (hk : Known w) (hn : Needs dev w e) :
    Traced ((surroundings dev).lose w e) := by
  intro y hy z hz
  rcases List.mem_cons.1 hy with rfl | hy
  · exact hz.used_of_needs hn hk (fun r' h' => by cases h') fun _ h => h
  · exact h y hy z hz

/-! ### relations between the log and the record -/

/-- The answer `r` to the call may be given, or it may be lost. -/
def Allowed (dev : Device) (P : Policy World Call Reply Project) (w : World) (e : Call) :
    Option (Answer e) → Prop
  | some r => ∃ x, P.reply w e x ∧ answer dev w e x = some r
  | none => P.lose w e

structure Chronicle (dev : Device) (R : List Entry → ActiveAttempt → Prop) (w : World) : Prop where
  traced : Traced w
  file : ∀ c, Holds dev w c → R w.log c
  loads : ∀ pre c rest, w.log = pre ++ .call .loadActive (some (.ok (some c))) :: rest → R rest c

/-- What a relation owes to hold along every run, on top of an invariant `K`. -/
structure Chronicled (dev : Device) (P : Policy World Call Reply Project) (Init K : World → Prop)
    (R : List Entry → ActiveAttempt → Prop) : Prop where
  init : ∀ w c, Init w → Holds dev w c → R [] c
  stop : ∀ log c, R log c → R (.stopped :: log) c
  call : ∀ w e r c, K w → Chronicle dev R w → Needs dev w e → Allowed dev P w e r → Holds dev w c →
    (∀ a, Entry.call e r ≠ .call (.saveActive a) (some (.ok ()))) → R (.call e r :: w.log) c
  edit : ∀ w c a r, K w → Chronicle dev R w → Needs dev w (.saveActive a) →
    Allowed dev P w (.saveActive a) (some r) → Holds dev w c → Reading c w.log → Edit dev w c a →
    R (.call (.saveActive a) (some r) :: w.log) a
  fresh : ∀ w a r, K w → Traced w → isFreshIntent dev a = true → a.attemptId ∉ w.used →
    R (.call (.saveActive a) (some r) :: w.log) a

/-- A save that was acknowledged is in the file. -/
theorem saved_effect {e : Call} {x : Reply} {r : Answer e} {a : ActiveAttempt}
    (hr : answer dev w e x = some r)
    (h : Entry.call e (some r) = .call (.saveActive a) (some (.ok ()))) :
    e = .saveActive a ∧ a.validate dev.toHost = .ok () ∧ (effect dev w e x).active = some a := by
  cases h
  obtain ⟨hv, rfl⟩ := answer_saveActive hr
  exact ⟨rfl, hv, by simp [effect, hv, Except.isOk, Except.toBool, Reply.writes]⟩

theorem loads_cons {R : List Entry → ActiveAttempt → Prop} {e : Entry} {log : List Entry}
    (h : ∀ pre c rest, log = pre ++ .call .loadActive (some (.ok (some c))) :: rest → R rest c)
    (he : ∀ c, e = .call .loadActive (some (.ok (some c))) → R log c) :
    ∀ pre c rest, e :: log = pre ++ .call .loadActive (some (.ok (some c))) :: rest → R rest c := by
  intro pre c rest hl
  rcases split_cons hl with ⟨rfl, rfl⟩ | ⟨pre, hl⟩
  · exact he c rfl
  · exact h pre c rest hl

/-- Whatever a call does to the attempt: it stays, goes away or is replaced by a save. -/
theorem active_effect (dev : Device) (w : World) (e : Call) (x : Reply) :
    (effect dev w e x).active = w.active ∨ (effect dev w e x).active = none ∨
      ∃ a, e = .saveActive a ∧ a.validate dev.toHost = .ok () ∧
        (effect dev w e x).active = some a := by
  cases e with
  | saveActive a =>
    simp only [effect]
    split_ifs with hv
    · refine .inr (.inr ⟨a, rfl, ?_, rfl⟩)
      simp only [Bool.and_eq_true] at hv
      cases hval : a.validate dev.toHost with
      | ok => rfl
      | error e => simp [hval, Except.isOk, Except.toBool] at hv
    · exact .inl rfl
  | removeActive =>
    simp only [effect]
    split_ifs
    · exact .inr (.inl rfl)
    · exact .inl rfl
  | lock => cases x <;> exact .inl rfl
  | saveOutbox | removeOutbox | saveHistory =>
    simp only [effect]
    split_ifs <;> exact .inl rfl
  | _ => exact .inl rfl

theorem holds_effect {e : Call} {x : Reply} {c : ActiveAttempt} {u : World}
    (hu : u.active = (effect dev w e x).active) (h : Holds dev u c) :
    Holds dev w c ∨ ∃ a, e = .saveActive a ∧ a.validate dev.toHost = .ok () ∧ u.active = some a := by
  rcases active_effect dev w e x with ha | ha | ⟨a, he, hv, ha⟩
  · exact .inl ((holds_of_active (hu.trans ha)).1 h)
  · exact absurd (hu.trans ha) h.active
  · exact .inr ⟨a, he, hv, hu.trans ha⟩

variable {Init K : World → Prop} {R : List Entry → ActiveAttempt → Prop}

theorem fresh_not_legacy {a : ActiveAttempt} (h : isFreshIntent dev a = true) :
    a.phase ≠ .legacyRunning := by
  have ha : a = freshIntent dev a.jobId a.workspaceId a.targetId a.attemptId a.claimToken
      a.frozenAgentId := by simpa [isFreshIntent] using h
  rw [ha]
  simp [freshIntent]

/-- What a save has put into the file is what is read from it. -/
theorem Needs.holds_saved {a c : ActiveAttempt} (hn : Needs dev w (.saveActive a))
    (hv : a.validate dev.toHost = .ok ()) (ha : t.active = some a) (hc : Holds dev t c) : c = a := by
  have hnl : a.phase ≠ .legacyRunning := by
    rcases hn.demand.2 with ⟨b, hb, -, he⟩ | ⟨-, hf, -⟩
    · exact he.not_legacy hb.valid.2
    · exact fresh_not_legacy hf
  exact (holds_of_saved ha (ActiveAttempt.validate_ok_iff.1 hv) hnl).unique hc

theorem chronicle_over (hstart : Starts Init) (hK : Invariant dev P Init K)
    (hR : Chronicled dev P Init K R) : Invariant dev P Init fun w => K w ∧ Chronicle dev R w where
  init w hw := by
    refine ⟨hK.init w hw, ?_⟩
    have hl := (hstart w hw).2
    refine ⟨fun e he => ?_, fun c hc => ?_, fun pre c rest h => ?_⟩
    · rw [hl] at he
      cases he
    · rw [hl]
      exact hR.init w c hw hc
    · rw [hl] at h
      cases pre <;> cases h
  reply w e x r t hI hk hn hp hs := by
    refine ⟨hK.reply w e x r t hI.1 hk hn hp hs, ?_⟩
    obtain ⟨hKw, hI⟩ := hI
    obtain ⟨hr, ht⟩ := serve_inv hs
    have hlog := log_serve hs
    refine ⟨traced_serve hI.traced hk hn hs, fun c hc => ?_, ?_⟩
    · rw [hlog]
      have hact : t.active = (effect dev w e x).active := by
        rw [ht]
        rfl
      by_cases hsv : ∃ a, e = .saveActive a ∧ a.validate dev.toHost = .ok () ∧ t.active = some a
      · obtain ⟨a, rfl, hv, ha⟩ := hsv
        rw [hn.holds_saved hv ha hc]
        rcases hn.demand.2 with ⟨b, hb, hrd, he⟩ | ⟨-, hf, hu⟩
        · exact hR.edit w b a r hKw hI hn ⟨x, hp, hr⟩ hb hrd he
        · exact hR.fresh w a r hKw hI.traced hf hu
      · have h := (holds_effect hact hc).resolve_right hsv
        refine hR.call w e (some r) c hKw hI hn ⟨x, hp, hr⟩ h fun a he => hsv ⟨a, ?_⟩
        rw [hact]
        exact saved_effect hr he
    · rw [hlog]
      refine loads_cons hI.loads fun c he => ?_
      cases he
      exact hI.file c (answer_loadActive hr)
  lose w e hI hk hn hp := by
    refine ⟨hK.lose w e hI.1 hk hn hp, traced_lose hI.2.traced hk hn, fun c hc => ?_, ?_⟩
    · exact hR.call w e none c hI.1 hI.2 hn hp hc fun a he => by cases he
    · exact loads_cons hI.2.loads fun c he => by cases he
  stop w hI := by
    refine ⟨hK.stop w hI.1, fun e he => ?_, fun c hc => hR.stop _ _ (hI.2.file c hc), ?_⟩
    · rcases List.mem_cons.1 he with rfl | he
      · rintro x ⟨⟩
      · exact hI.2.traced e he
    · exact loads_cons hI.2.loads fun c he => by cases he
  project w x t hI hp hx := by
    obtain ⟨-, -, -, hu, hg, ha⟩ := project_frame hx
    refine ⟨hK.project w x t hI.1 hp hx, fun e he => ?_, fun c hc => ?_, ?_⟩
    · rw [hu]
      exact hI.2.traced e (hg ▸ he)
    · rw [hg]
      exact hI.2.file c (hc.frame (.of_project hx))
    · rw [hg]
      exact hI.2.loads

theorem invariant_true : Invariant dev P Init fun _ => True where
  init _ _ := trivial
  reply _ _ _ _ _ _ _ _ _ _ := trivial
  lose _ _ _ _ _ _ := trivial
  stop _ _ := trivial
  project _ _ _ _ _ _ := trivial

theorem chronicle_invariant (hstart : Starts Init)
    (hR : Chronicled dev P Init (fun _ => True) R) : Invariant dev P Init (Chronicle dev R) := by
  simpa only [true_and] using chronicle_over hstart invariant_true hR

theorem chronicle (hstart : Starts Init) (hR : Chronicled dev P Init (fun _ => True) R)
    {s : Machine.State World Call Answer Out} (hs : ((daemon dev Init).under P).Reachable s) :
    Chronicle dev R s.store ∧ ∀ e k, s.proc = some (.call e k) → Needs dev s.store e :=
  have h := daemon_inv hstart (chronicle_invariant hstart hR) hs
  ⟨h.1, h.2.2⟩

/-! ### records in the log -/

/-- The record was on disk: a save of it was acknowledged, or it was loaded. -/
def OnRecord (log : List Entry) (b : ActiveAttempt) : Prop :=
  .call (.saveActive b) (some (.ok ())) ∈ log ∨ .call .loadActive (some (.ok (some b))) ∈ log

theorem OnRecord.of_cons {e : Entry} {log : List Entry} {b : ActiveAttempt}
    (h : OnRecord (e :: log) b) :
    OnRecord log b ∨ e = .call (.saveActive b) (some (.ok ())) ∨
      e = .call .loadActive (some (.ok (some b))) := by
  rcases h with h | h <;> rcases List.mem_cons.1 h with h | h
  · exact .inr (.inl h.symm)
  · exact .inl (.inl h)
  · exact .inr (.inr h.symm)
  · exact .inl (.inr h)

theorem OnRecord.used {b : ActiveAttempt} (h : OnRecord w.log b) (ht : Traced w) :
    b.attemptId ∈ w.used := by
  rcases h with h | h
  · exact ht _ h _ (.save b rfl)
  · exact ht _ h _ (.load b rfl)

/-- A fact about the log alone, on top of an invariant. -/
theorem log_invariant {J : World → Prop} (hstart : Starts Init) (hJ : Invariant dev P Init J)
    {L : List Entry → Prop} (nil : L []) (stop : ∀ log, L log → L (.stopped :: log))
    (call : ∀ w e r, J w → Needs dev w e → Allowed dev P w e r → L w.log →
      L (.call e r :: w.log)) :
    Invariant dev P Init fun w => J w ∧ L w.log where
  init w hw := ⟨hJ.init w hw, (hstart w hw).2 ▸ nil⟩
  reply w e x r t hI hk hn hp hs := by
    refine ⟨hJ.reply w e x r t hI.1 hk hn hp hs, ?_⟩
    rw [log_serve hs]
    exact call w e (some r) hI.1 hn ⟨x, hp, (serve_inv hs).1⟩ hI.2
  lose w e hI hk hn hp := ⟨hJ.lose w e hI.1 hk hn hp, call w e none hI.1 hn hp hI.2⟩
  stop w hI := ⟨hJ.stop w hI.1, stop _ hI.2⟩
  project w x t hI hp hx := by
    obtain ⟨-, -, -, -, hg, -⟩ := project_frame hx
    refine ⟨hJ.project w x t hI.1 hp hx, ?_⟩
    rw [hg]
    exact hI.2

end

end Ceo.Attempt
