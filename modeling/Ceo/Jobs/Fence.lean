import Ceo.Jobs.Effect

/-!
# The delete fence

The fence commands of `RedisJobStoreV2` (`jobs/v2-store.ts`) and the delete
runs that issue them (`jobs/target-delete.ts`), any number of them on one
target, each known by its token. Acquiring and touching are one command each;
a takeover and a release are two, and what the first has read may be gone when
the second writes. `undisturbed` is the condition that it is not.
-/

namespace Ceo.Jobs

open Ceo.Lib Function

/-! ### the commands -/

/-- `SET … PX` of a fence value. -/
def setTargetDeleteFence (now startedMs : Nat) (targetId token : String) (r : Redis) : Redis :=
  exec now r (.setFence targetId (some ⟨startedMs, token, now + targetDeleteFenceTtlMs⟩))

/-- `SET NX PX`, with the server clock in the value. -/
def acquireTargetDeleteFence (now dateNow : Nat) (targetId token : String) (r : Redis) :
    Bool × Redis :=
  match r.getFence targetId now with
  | none => (true, setTargetDeleteFence now dateNow targetId token r)
  | some _ => (false, r)

/-- `SET XX PX`, whatever the value is. -/
def takeoverStaleTargetDeleteFence (now dateNow : Nat) (targetId token : String) (r : Redis) :
    Bool × Redis :=
  match r.getFence targetId now with
  | none => (false, r)
  | some _ => (true, setTargetDeleteFence now dateNow targetId token r)

/-- `V2_TOUCH_DELETE_FENCE_SCRIPT` -/
def touchTargetDeleteFence (now : Nat) (targetId token : String) (r : Redis) : Bool × Redis :=
  match r.getFence targetId now with
  | none => (false, r)
  | some f =>
    if f.token = token then (true, setTargetDeleteFence now now targetId token r) else (false, r)

/-- `DEL` of the fence. -/
def delTargetDeleteFence (now : Nat) (targetId : String) (r : Redis) : Redis :=
  exec now r (.setFence targetId none)

/-- A value another run has to leave alone, by the clock of the server that read it. -/
def inProgress (dateNow : Nat) : Option DeleteFence → Bool
  | none => false
  | some f => f.startedMs ≤ dateNow && dateNow - f.startedMs < targetDeleteFenceTtlMs

/-! ### the runs -/

/-- How far a delete run has got. -/
inductive DeletePhase where
  | idle
  /-- The acquisition has lost. -/
  | contended
  | read (fence : Option DeleteFence)
  /-- The fence it has read is to be taken over. -/
  | stale (fence : Option DeleteFence)
  /-- The fence was gone at the takeover. -/
  | retrying
  /-- The fence is held: `verifyTargetQuiescence` and the deletion of the row. -/
  | holding
  /-- The release has read its own value. -/
  | releasing (fence : DeleteFence)
  | done
  deriving DecidableEq, Repr

structure Deletes where
  redis : Redis
  /-- The last reading of the Redis clock. -/
  clock : Nat
  phase : String → DeletePhase

inductive DeleteAct where
  | acquire (dateNow : Nat)
  /-- The row of the target is gone. -/
  | rowGone
  | getFence
  | judge (dateNow : Nat)
  | takeover (dateNow : Nat)
  | retry (dateNow : Nat)
  | touch
  | getOwn
  | del
  /-- The run dies. -/
  | crash
  deriving DecidableEq, Repr

structure DeleteStep where
  token : String
  now : Nat
  act : DeleteAct
  deriving DecidableEq, Repr

section

variable (targetId : String)

/-- What a step makes of the store and of the phase of its run. -/
def deleteNext (now : Nat) (token : String) (r : Redis) :
    DeletePhase → DeleteAct → Option (Redis × DeletePhase)
  | .idle, .acquire dateNow =>
    match acquireTargetDeleteFence now dateNow targetId token r with
    | (true, r') => some (r', .holding)
    | (false, r') => some (r', .contended)
  | .contended, .rowGone => some (r, .done)
  | .contended, .getFence => some (r, .read (r.getFence targetId now))
  | .read fence, .judge dateNow =>
    if inProgress dateNow fence then some (r, .done) else some (r, .stale fence)
  | .stale _, .takeover dateNow =>
    match takeoverStaleTargetDeleteFence now dateNow targetId token r with
    | (true, r') => some (r', .holding)
    | (false, r') => some (r', .retrying)
  | .retrying, .retry dateNow =>
    match acquireTargetDeleteFence now dateNow targetId token r with
    | (true, r') => some (r', .holding)
    | (false, r') => some (r', .done)
  | .holding, .touch => some ((touchTargetDeleteFence now targetId token r).2, .holding)
  | .holding, .getOwn =>
    match r.getFence targetId now with
    | none => some (r, .done)
    | some f => if f.token = token then some (r, .releasing f) else some (r, .done)
  | .releasing _, .del => some (delTargetDeleteFence now targetId r, .done)
  | _, .crash => some (r, .done)
  | _, _ => none

/-- A step of one of the runs, at a Redis clock that does not go back. -/
def deletesNext (s : Deletes) (a : DeleteStep) : Option Deletes :=
  if s.clock ≤ a.now then
    (deleteNext targetId a.now a.token s.redis (s.phase a.token) a.act).map fun x =>
      ⟨x.1, a.now, update s.phase a.token x.2⟩
  else none

def deletes : LTS Deletes DeleteStep :=
  .ofOption (fun s => s.redis = Redis.empty ∧ s.phase = fun _ => .idle) (deletesNext targetId)

/-- The write of a takeover or a release meets the fence its run has read or none at all, and the
server clock by which a fence is judged lies between its start and the Redis clock. -/
def undisturbed (s : Deletes) (a : DeleteStep) : Bool :=
  match s.phase a.token, a.act with
  | .read (some f), .judge dateNow => f.startedMs ≤ dateNow && dateNow ≤ a.now
  | .stale f, .takeover _ =>
    (s.redis.getFence targetId a.now).isNone || s.redis.getFence targetId a.now == f
  | .releasing f, .del =>
    (s.redis.getFence targetId a.now).isNone || s.redis.getFence targetId a.now == some f
  | _, _ => true

/-- The step `a` leaves a fresh fence of another run as it is. -/
def LeavesFence (s : Deletes) (a : DeleteStep) (s' : Deletes) : Prop :=
  ∀ f, s.redis.getFence targetId a.now = some f → a.now - f.startedMs < targetDeleteFenceTtlMs →
    f.token ≠ a.token → s'.redis.getFence targetId a.now = some f

end

/-! ### what a run knows -/

section

variable {targetId : String} {s s' : Deletes} {a : DeleteStep} {r r' : Redis} {now : Nat}
  {token : String}

/-- What a run has read is its own, or was no longer fresh. -/
def Knows (clock : Nat) (token : String) : DeletePhase → Prop
  | .stale (some f) => f.startedMs + targetDeleteFenceTtlMs ≤ clock
  | .releasing f => f.token = token
  | _ => True

theorem Knows.mono {clock clock' : Nat} {ph : DeletePhase} (h : Knows clock token ph)
    (hc : clock ≤ clock') : Knows clock' token ph := by
  unfold Knows at *
  split at h <;> first | exact h.trans hc | exact h

theorem getFence_set (targetId : String) (r : Redis) (now startedMs : Nat) (token : String) :
    (setTargetDeleteFence now startedMs targetId token r).getFence targetId now =
      some ⟨startedMs, token, now + targetDeleteFenceTtlMs⟩ := by
  simp [setTargetDeleteFence, exec, Redis.getFence, targetDeleteFenceTtlMs]

theorem deletesNext_inv (h : deletesNext targetId s a = some s') :
    ∃ r ph, s.clock ≤ a.now ∧
      deleteNext targetId a.now a.token s.redis (s.phase a.token) a.act = some (r, ph) ∧
      s' = ⟨r, a.now, update s.phase a.token ph⟩ := by
  unfold deletesNext at h
  split_ifs at h with hc
  obtain ⟨⟨r, ph⟩, hd, rfl⟩ := Option.map_eq_some_iff.1 h
  exact ⟨r, ph, hc, hd, rfl⟩

/-- Where a step leads to. -/
inductive DeleteMove (targetId : String) (now : Nat) (token : String) (r : Redis) :
    DeletePhase → DeleteAct → Redis → DeletePhase → Prop where
  /-- Nothing is written, and nothing new is known. -/
  | quiet {ph ph' : DeletePhase} {act : DeleteAct} (hk : ∀ clock, Knows clock token ph') :
      DeleteMove targetId now token r ph act r ph'
  | judged (fence : Option DeleteFence) (dateNow : Nat) (h : inProgress dateNow fence = false) :
      DeleteMove targetId now token r (.read fence) (.judge dateNow) r (.stale fence)
  | owned (f : DeleteFence) (hr : r.getFence targetId now = some f) (h : f.token = token) :
      DeleteMove targetId now token r .holding .getOwn r (.releasing f)
  | acquired {ph : DeletePhase} {act : DeleteAct} (dateNow : Nat)
      (hr : r.getFence targetId now = none) :
      DeleteMove targetId now token r ph act
        (setTargetDeleteFence now dateNow targetId token r) .holding
  | touched (f : DeleteFence) (hr : r.getFence targetId now = some f) (h : f.token = token) :
      DeleteMove targetId now token r .holding .touch
        (setTargetDeleteFence now now targetId token r) .holding
  | tookOver (fence : Option DeleteFence) (dateNow : Nat) (f : DeleteFence)
      (hr : r.getFence targetId now = some f) :
      DeleteMove targetId now token r (.stale fence) (.takeover dateNow)
        (setTargetDeleteFence now dateNow targetId token r) .holding
  | deleted (f : DeleteFence) :
      DeleteMove targetId now token r (.releasing f) .del (delTargetDeleteFence now targetId r) .done

theorem acquire_cases (dateNow : Nat) :
    (r.getFence targetId now = none ∧ acquireTargetDeleteFence now dateNow targetId token r =
      (true, setTargetDeleteFence now dateNow targetId token r)) ∨
    acquireTargetDeleteFence now dateNow targetId token r = (false, r) := by
  unfold acquireTargetDeleteFence
  cases hf : r.getFence targetId now with
  | none => exact .inl ⟨rfl, rfl⟩
  | some f => exact .inr rfl

/-- **Every step is one of the moves.** -/
theorem deleteNext_move {ph ph' : DeletePhase} {act : DeleteAct}
    (h : deleteNext targetId now token r ph act = some (r', ph')) :
    DeleteMove targetId now token r ph act r' ph' := by
  unfold deleteNext at h
  split at h
  case h_1 dateNow | h_6 dateNow =>
    rcases @acquire_cases targetId r now token dateNow with
      ⟨hf, ha⟩ | ha
    · rw [ha] at h
      cases h
      exact .acquired dateNow hf
    · rw [ha] at h
      cases h
      exact .quiet fun _ => trivial
  case h_4 fence dateNow =>
    split_ifs at h with hp
    · cases h
      exact .quiet fun _ => trivial
    · cases h
      exact .judged fence dateNow (by simpa using hp)
  case h_5 fence dateNow =>
    unfold takeoverStaleTargetDeleteFence at h
    cases hf : r.getFence targetId now with
    | none =>
      simp only [hf] at h
      cases h
      exact .quiet fun _ => trivial
    | some f =>
      simp only [hf] at h
      cases h
      exact .tookOver fence dateNow f hf
  case h_7 =>
    unfold touchTargetDeleteFence at h
    cases hf : r.getFence targetId now with
    | none =>
      simp only [hf] at h
      cases h
      exact .quiet fun _ => trivial
    | some f =>
      simp only [hf] at h
      split_ifs at h with ht
      · cases h
        exact .touched f hf ht
      · cases h
        exact .quiet fun _ => trivial
  case h_8 =>
    cases hf : r.getFence targetId now with
    | none =>
      simp only [hf] at h
      cases h
      exact .quiet fun _ => trivial
    | some f =>
      simp only [hf] at h
      split_ifs at h with ht
      · cases h
        exact .owned f hf ht
      · cases h
        exact .quiet fun _ => trivial
  case h_9 f =>
    cases h
    exact .deleted f
  case h_11 => cases h
  all_goals
    cases h
    exact .quiet fun _ => trivial

theorem not_inProgress {dateNow : Nat} {f : DeleteFence} (h : inProgress dateNow (some f) = false)
    (hs : f.startedMs ≤ dateNow) : f.startedMs + targetDeleteFenceTtlMs ≤ dateNow := by
  simp only [inProgress, Bool.and_eq_false_iff, decide_eq_false_iff_not] at h
  omega

/-- What every run knows at the last reading of the clock. -/
def AllKnow (s : Deletes) : Prop := ∀ token, Knows s.clock token (s.phase token)

theorem AllKnow.step (h : AllKnow s) (hg : undisturbed targetId s a = true)
    (hs : deletesNext targetId s a = some s') : AllKnow s' := by
  obtain ⟨r, ph, hc, hd, rfl⟩ := deletesNext_inv hs
  intro t
  by_cases ht : t = a.token
  · subst ht
    simp only [update_self]
    have hm := deleteNext_move hd
    revert hg
    unfold undisturbed
    generalize s.phase a.token = p at hm
    generalize a.act = act at hm
    intro hg
    cases hm with
    | quiet hk => exact hk _
    | judged fence dateNow hp =>
      cases fence with
      | none => trivial
      | some f =>
        simp only [Bool.and_eq_true, decide_eq_true_eq] at hg
        exact (not_inProgress hp hg.1).trans hg.2
    | owned f hr hf => exact hf
    | _ => trivial
  · simp only [update_of_ne ht]
    exact (h t).mono hc

/-- A step that knows what it does leaves a fresh fence of another run. -/
theorem AllKnow.leaves (h : AllKnow s) (hg : undisturbed targetId s a = true)
    (hs : deletesNext targetId s a = some s') : LeavesFence targetId s a s' := by
  obtain ⟨r, ph, hc, hd, rfl⟩ := deletesNext_inv hs
  intro f hf hfresh hne
  have hk := (h a.token).mono hc
  have hm := deleteNext_move hd
  revert hg hk
  unfold undisturbed
  generalize s.phase a.token = p at hm
  generalize a.act = act at hm
  intro hg hk
  cases hm with
  | quiet | judged | owned => exact hf
  | acquired dateNow hr => cases hr.symm.trans hf
  | touched g hr ht =>
    cases hr.symm.trans hf
    exact absurd ht hne
  | tookOver fence dateNow g hr =>
    obtain rfl : some f = fence := by
      simpa [hf] using hg
    have hk : f.startedMs + targetDeleteFenceTtlMs ≤ a.now := hk
    omega
  | deleted g =>
    obtain rfl : f = g := by
      simpa [hf] using hg
    exact absurd hk hne

/-- The runs whose writes are undisturbed. -/
def orderly (targetId : String) : LTS Deletes DeleteStep :=
  (deletes targetId).guard fun s a => undisturbed targetId s a = true

/-- **A fresh fence is its owner's** in every run whose takeovers and releases write over what they
have read. -/
theorem fence_kept (hs : (orderly targetId).Reachable s) (hstep : (orderly targetId).Step s a s') :
    LeavesFence targetId s a s' := by
  have hk : AllKnow s := by
    refine LTS.Reachable.inv (I := AllKnow) (fun {s} h t => ?_) (fun h hstep => ?_) hs
    · rw [h.2]
      trivial
    · exact h.step hstep.1 hstep.2
  exact hk.leaves hstep.1 hstep.2

end

/-! ### two runs on one target -/

namespace Deletes

def init : Deletes := ⟨Redis.empty, 0, fun _ => .idle⟩

theorem reachable (steps : List DeleteStep) (check : Deletes → Bool)
    (h : (steps.foldlM (deletesNext "target-1") init).any check = true) :
    ∃ s, (deletes "target-1").Reachable s ∧ check s = true := by
  cases hr : steps.foldlM (deletesNext "target-1") init with
  | none => simp [hr] at h
  | some s =>
    rw [hr] at h
    exact ⟨s, ⟨init, steps, ⟨rfl, rfl⟩, LTS.run_ofOption _ hr⟩, h⟩

theorem reachable_orderly (steps : List DeleteStep) (check : Deletes → Bool)
    (h : (steps.foldlM (fun s a => if undisturbed "target-1" s a = true then
      deletesNext "target-1" s a else none) init).any check = true) :
    ∃ s, (orderly "target-1").Reachable s ∧ check s = true := by
  cases hr : steps.foldlM (fun s a => if undisturbed "target-1" s a = true then
      deletesNext "target-1" s a else none) init with
  | none => simp [hr] at h
  | some s =>
    rw [hr] at h
    exact ⟨s, ⟨init, steps, ⟨rfl, rfl⟩, LTS.run_guard_ofOption _ hr⟩, h⟩

/-- A stale fence is taken over while the run that left it is still there. -/
def takesOver : List DeleteStep :=
  [⟨"a", 5, .acquire 0⟩, ⟨"b", 60002, .acquire 60002⟩, ⟨"b", 60003, .getFence⟩,
    ⟨"b", 60003, .judge 60003⟩, ⟨"b", 60004, .takeover 60004⟩]

/-- The fence runs out after its owner has read it, and another run acquires it. -/
def releasesLate : List DeleteStep :=
  [⟨"a", 0, .acquire 0⟩, ⟨"a", 59999, .getOwn⟩, ⟨"b", 60000, .acquire 60000⟩]

/-- The fence of `b` is there, fresh, and the step of `a` can be made. -/
def meets (s : Deletes) (a : DeleteStep) (kept : Bool) : Bool :=
  (s.redis.getFence "target-1" a.now).any (fun f => f.token == "b" &&
    a.now - f.startedMs < targetDeleteFenceTtlMs) &&
  (deletesNext "target-1" s a).any fun s' =>
    (s'.redis.getFence "target-1" a.now == s.redis.getFence "target-1" a.now) == kept

end Deletes

/-- The run that has lost its fence leaves that of the other when it releases. -/
theorem fence_kept_sample : ∃ s s', (orderly "target-1").Reachable s ∧
    (orderly "target-1").Step s ⟨"a", 60006, .getOwn⟩ s' ∧
    LeavesFence "target-1" s ⟨"a", 60006, .getOwn⟩ s' := by
  obtain ⟨s, hs, hc⟩ := Deletes.reachable_orderly Deletes.takesOver
    (fun s => undisturbed "target-1" s ⟨"a", 60006, .getOwn⟩ &&
      s.meets ⟨"a", 60006, .getOwn⟩ true) (by decide +kernel)
  simp only [Bool.and_eq_true, Deletes.meets, Option.any_eq_true] at hc
  obtain ⟨hu, -, s', hs', -⟩ := hc
  exact ⟨s, s', hs, ⟨hu, hs'⟩, fence_kept hs ⟨hu, hs'⟩⟩

/-- A release removes the fresh fence of another run. -/
theorem fence_not_kept :
    ¬ ∀ s a s', (deletes "target-1").Reachable s → (deletes "target-1").Step s a s' →
      LeavesFence "target-1" s a s' := by
  intro h
  obtain ⟨s, hs, hc⟩ := Deletes.reachable Deletes.releasesLate
    (fun s => s.meets ⟨"a", 60001, .del⟩ false) (by decide +kernel)
  simp only [Bool.and_eq_true, Deletes.meets, Option.any_eq_true, decide_eq_true_eq,
    beq_iff_eq] at hc
  obtain ⟨⟨f, hf, ht, hfresh⟩, s', hs', hkept⟩ := hc
  have := h s ⟨"a", 60001, .del⟩ s' hs hs' f hf hfresh (by rw [ht]; decide)
  rw [this, hf] at hkept
  simp at hkept

end Ceo.Jobs
