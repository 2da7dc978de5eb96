import Ceo.Lib.Ends
import Ceo.Workspace.Journal

/-!
# A superseded transaction stays superseded

An archived record of a request id is never written over: whatever the service
runs afterwards, and wherever it stops, each transaction of the request id
throws and touches nothing.
-/

namespace Ceo.Workspace

open Ceo.Lib Function

/-! ### what runs under the lock -/

/-- The commands of one holding of the workspace lock. -/
inductive Request where
  /-- `initialize` and `status`. -/
  | recover
  /-- `withReadyWorkspace` -/
  | ready
  | transaction (input : TransactionInput)

def handleRequest (branch : String) : Request → Prog Unit
  | .recover => do
    CeoWorkspace.recoverPending
    CeoWorkspace.syncCleanWorkspace
  | .ready => discard CeoWorkspace.readyBase
  | .transaction input => discard (CeoWorkspace.withAtomicWorkspaceTransaction branch input)

/-- What happens to the disk and the remote: others push, and the service does its work, to the end
or up to where it stops. -/
inductive Happens (branch : String) : Disk → Disk → Prop where
  | push {d d' : Disk} (c : Commit) (h : thirdPartyPush d c = some d') : Happens branch d d'
  | request {d d' : Disk} (r : Request)
    (h : Visits surroundings .any (handleRequest branch r).run d d') : Happens branch d d'

abbrev Later (branch : String) : Disk → Disk → Prop := Relation.ReflTransGen (Happens branch)

/-! ### one record -/

section archived

variable (rid : String)

/-- The request has its record, and none of its commits is waiting. -/
structure Archived (d : Disk) : Prop where
  stale : ∃ c, d.completed rid = some c ∧ c.isStale = true
  pending : ∀ p, d.pending = some p → p.requestId ≠ rid

/-- The command leaves the record of the request alone. -/
def Spares : Call → Prop
  | .writeCompleted c => c.requestId ≠ rid
  | .writePending p => p.requestId ≠ rid
  | .readCompleted _ | .readPending | .removePending | .fetch | .status | .resolveHead
  | .resolveOrigin | .moveTo _ | .isAncestor _ _ | .push _ | .prepare _ _ | .discardWorktree => True

def archivedContract : Contract Disk Call Fate Commit where
  policy := .any
  inv := Archived rid
  needs _ := Spares rid

variable {rid}

theorem Archived.of_eq {d d' : Disk} (h : Archived rid d) (hc : d'.completed = d.completed)
    (hp : d'.pending = d.pending) : Archived rid d' :=
  ⟨hc ▸ h.stale, hp ▸ h.pending⟩

theorem Archived.work {d : Disk} (h : Archived rid d) {e : Call} (he : Spares rid e) :
    Archived rid (d.work e) := by
  cases e with
  | writeCompleted c =>
    obtain ⟨c', hc', hstale⟩ := h.stale
    exact ⟨⟨c', (update_of_ne (Ne.symm he) _ _).trans hc', hstale⟩, h.pending⟩
  | writePending p =>
    refine ⟨h.stale, fun p' hp' => ?_⟩
    cases hp'
    exact he
  | removePending => exact ⟨h.stale, fun p' hp' => (by cases hp')⟩
  | push c =>
    show Archived rid (if d.remote ∈ c.history then _ else _)
    split
    · exact h.of_eq rfl rfl
    · exact h
  | _ => exact h.of_eq rfl rfl

theorem Archived.serve {d d' : Disk} {e : Call} {x : Fate} {r : Call.Answer e}
    (h : Archived rid d) (he : Spares rid e) (hx : serveCall d e x = some (r, d')) :
    Archived rid d' := by
  obtain ⟨a, -, ha⟩ := Option.map_eq_some_iff.1 hx
  obtain ⟨-, rfl⟩ := Prod.mk.inj ha
  split
  · exact h.work he
  · exact h

theorem thirdPartyPush_keeps {d d' : Disk} {c : Commit} (h : thirdPartyPush d c = some d') :
    d'.completed = d.completed ∧ d'.pending = d.pending ∧ d'.made = d.made := by
  unfold thirdPartyPush at h
  split at h
  · cases h
    exact ⟨rfl, rfl, rfl⟩
  · cases h

theorem Archived.push {d d' : Disk} {c : Commit} (h : Archived rid d)
    (hc : thirdPartyPush d c = some d') : Archived rid d' :=
  h.of_eq (thirdPartyPush_keeps hc).1 (thirdPartyPush_keeps hc).2.1

theorem archived_keeps : surroundings.Keeps (archivedContract rid) where
  surround _ _ _ h _ hx := h.push hx
  reply _ _ _ _ _ h he _ hx := h.serve he hx
  lose _ _ h he := h.work he
  stop _ h := h

/-- What a command is answered with, when it is answered. -/
theorem answer_of_serve {d t : Disk} {e : Call} {x : Fate} {r : Call.Answer e}
    (hx : serveCall d e x = some (r, t)) : answer d e x = some r := by
  obtain ⟨a, ha, hr⟩ := Option.map_eq_some_iff.1 hx
  obtain ⟨rfl, -⟩ := Prod.mk.inj hr
  exact ha

/-- An error of a command is none of the workspace's own. -/
def Genuine (e : Call) (r : Call.Answer e) : Prop := ∀ f, r = .error f → f.isStale = false

theorem genuine_of_serve {d t : Disk} {e : Call} {x : Fate} {r : Call.Answer e}
    (hx : serveCall d e x = some (r, t)) : Genuine e r := by
  rintro f rfl
  have h := answer_of_serve hx
  unfold answer at h
  split at h <;> try cases h
  all_goals try rfl
  all_goals
    split at h <;> cases h
    rfl

/-- The commands of the program satisfy `ok`, and what it throws satisfies `thrown`. -/
abbrev Throws {α : Type} (ok : Call → Prop) (thrown : Failure → Prop) (p : Prog α) : Prop :=
  p.run.Within ok Genuine fun r => ∀ f, r = .error f → thrown f

theorem throws_except {α β : Type} {ok : Call → Prop} {thrown : Failure → Prop} {x : Prog α}
    {f : α → Prog β} (hx : Throws ok thrown x) (hf : ∀ a, Throws ok thrown (f a)) :
    Throws ok thrown (x >>= f) := by
  unfold Throws
  rw [ExceptT.run_bind]
  refine hx.bind fun r hr => ?_
  cases r with
  | ok a => exact hf a
  | error e => exact fun f hf => hr f (congrArg Except.error (Except.error.inj hf))

/-- The program leaves the record of the request alone, and throws a `STALE_REVISION` only where
`stale` says so. -/
abbrev Confined {α : Type} (rid : String) (stale : Bool) (p : Prog α) : Prop :=
  Throws (Spares rid) (fun f => f.isStale = true → stale = true) p

section confined

variable {stale : Bool} {α β : Type}

theorem confined_ask {e : Call} (h : Spares rid e) : Confined rid stale (ask e) :=
  ⟨h, fun _ hr f hf hs => absurd (hr f hf) (by simp [hs])⟩

theorem confined_pure (a : α) : Confined rid stale (pure a : Prog α) :=
  fun _ h => by cases h

theorem confined_throw {f : Failure} (h : f.isStale = true → stale = true) :
    Confined rid stale (throw f : Prog α) := by
  rintro f' hf
  cases hf
  exact h

theorem confined_throw_bind {f : Failure} {g : α → Prog β} (h : f.isStale = true → stale = true) :
    Confined rid stale (throw f >>= g) := by
  rintro f' hf
  cases hf
  exact h

theorem confined_succeeds {p : Prog Unit} (h : Confined rid true p) :
    Confined rid stale (succeeds p) :=
  h.bind fun _ _ _ hf => by cases hf

end confined

namespace CeoWorkspace

theorem syncCleanWorkspace_confined : Confined rid stale syncCleanWorkspace := by
  unfold syncCleanWorkspace
  refine throws_except (confined_ask trivial) fun dirty => ?_
  split
  · exact confined_throw_bind fun h => absurd h (by decide)
  · refine throws_except (confined_ask trivial) fun _ => ?_
    refine throws_except (confined_ask trivial) fun (localHead : Commit) => ?_
    refine throws_except (confined_ask trivial) fun (remote : Commit) => ?_
    by_cases h : localHead = remote
    · rw [if_pos h]
      exact confined_pure ()
    · rw [if_neg h]
      exact confined_ask trivial

section pending

variable {pending : PendingTransaction} (h : pending.requestId ≠ rid)
include h

theorem settleTo_confined (remote : Commit) :
    Confined rid stale (settleTo pending remote) := by
  unfold settleTo
  refine throws_except (confined_ask trivial) fun dirty => ?_
  split
  · exact confined_throw_bind fun h => absurd h (by decide)
  · refine throws_except (confined_ask trivial) fun _ => ?_
    refine throws_except (confined_ask h) fun _ => ?_
    exact throws_except (confined_ask trivial) fun _ => confined_ask trivial

theorem finalizePending_confined (remoteOverride : Option Commit) :
    Confined rid stale (finalizePending pending remoteOverride) := by
  unfold finalizePending
  refine throws_except (confined_ask trivial) fun _ => ?_
  cases remoteOverride with
  | some remote => exact settleTo_confined h remote
  | none => exact throws_except (confined_ask trivial) (settleTo_confined h)

theorem archiveStalePending_confined (remoteHead : Commit) :
    Confined rid stale (archiveStalePending pending remoteHead) := by
  unfold archiveStalePending
  refine throws_except (confined_ask h) fun _ => ?_
  exact throws_except (confined_ask trivial) fun _ => confined_ask trivial

theorem reclassifyPending_confined (remote : Commit) :
    Confined rid stale (reclassifyPending pending remote) := by
  unfold reclassifyPending
  split
  · refine throws_except (confined_succeeds ?_) fun pushed => ?_
    · exact throws_except (confined_ask trivial) fun _ => finalizePending_confined h none
    · split
      · exact confined_pure ()
      · exact confined_throw fun h => absurd h (by decide)
  · exact throws_except (archiveStalePending_confined h remote) fun _ => syncCleanWorkspace_confined

theorem classifyPending_confined : Confined rid stale (classifyPending pending) := by
  unfold classifyPending
  refine throws_except (confined_succeeds (confined_ask trivial)) fun fetched => ?_
  split
  · exact confined_throw_bind fun h => absurd h (by decide)
  · refine throws_except (confined_ask trivial) fun (remote : Commit) => ?_
    split
    · exact finalizePending_confined h none
    · refine throws_except (confined_succeeds ?_) fun finalized => ?_
      · exact throws_except (confined_ask trivial) fun _ => finalizePending_confined h (some remote)
      · split
        · exact confined_pure ()
        · exact reclassifyPending_confined h remote

theorem publish_confined : Confined rid stale (publish pending) := by
  unfold publish
  refine throws_except (confined_succeeds (confined_ask trivial)) fun pushed => ?_
  split
  · exact confined_throw_bind fun h => absurd h (by decide)
  · exact throws_except (finalizePending_confined h none) fun _ => confined_pure _

theorem pushCommitted_confined (branch : String) :
    Confined rid true (pushCommitted branch pending) := by
  unfold pushCommitted
  refine throws_except (confined_ask trivial) fun _ => ?_
  refine throws_except (confined_ask trivial) fun (latest : Commit) => ?_
  split
  · refine throws_except (archiveStalePending_confined h latest) fun _ => ?_
    exact throws_except syncCleanWorkspace_confined fun _ => confined_throw fun _ => rfl
  · exact publish_confined h

end pending

theorem recordNoop_confined {input : TransactionInput} (h : input.requestId ≠ rid) :
    Confined rid stale (recordNoop input) := by
  unfold recordNoop
  refine throws_except (confined_ask trivial) fun _ => ?_
  split
  · exact confined_throw_bind fun h => absurd h (by decide)
  · exact throws_except (confined_ask h) fun _ => confined_pure _

theorem runTransaction_confined (branch : String) {input : TransactionInput}
    (h : input.requestId ≠ rid) : Confined rid true (runTransaction branch input) := by
  unfold runTransaction
  refine throws_except (confined_ask trivial) fun prepared => ?_
  cases prepared with
  | none => exact recordNoop_confined h
  | some commit => exact throws_except (confined_ask h) fun _ => pushCommitted_confined h branch

end CeoWorkspace

/-! ### safe programs -/

/-- What a program does after it has read something, in a store with the record. -/
abbrev Spared {α : Type} (rid : String) (p : Prog α) (d : Disk) : Prop :=
  Safe surroundings (archivedContract rid) (fun _ _ => True) p.run d

theorem spared_of_confined {α : Type} {p : Prog α} (h : Confined rid true p) (d : Disk) :
    Spared rid p d :=
  (Safe.of_within h (fun _ _ _ _ _ hx => genuine_of_serve hx) (fun _ he _ => he) d).mono
    fun _ _ _ => trivial

theorem Spared.bind {α β : Type} {x : Prog α} {f : α → Prog β} {d : Disk} (hx : Spared rid x d)
    (hf : ∀ a t, Spared rid (f a) t) : Spared rid (x >>= f) d := by
  show Safe _ _ _ (x >>= f).run d
  rw [ExceptT.run_bind]
  refine Safe.bind hx fun r t _ => ?_
  cases r with
  | ok a => exact hf a t
  | error e => trivial

theorem answer_readPending {d : Disk} {x : Fate} {r : Call.Answer .readPending}
    (h : answer d .readPending x = some r) : r = .ok d.pending ∨ r = .error .raw := by
  cases x <;> simp_all [answer]

theorem answer_readCompleted {d : Disk} {id : String} {x : Fate}
    {r : Call.Answer (.readCompleted id)} (h : answer d (.readCompleted id) x = some r) :
    r = .ok (d.completed id) ∨ r = .error .raw := by
  cases x <;> simp_all [answer]

theorem spared_readPending {α : Type} {f : Option PendingTransaction → Prog α} {d : Disk}
    (hf : ∀ found t, (∀ p, found = some p → p.requestId ≠ rid) → Spared rid (f found) t) :
    Spared rid (ask .readPending >>= f) d := by
  intro s _ hs
  refine ⟨trivial, fun x r t _ hx _ => ?_⟩
  obtain rfl | rfl := answer_readPending (answer_of_serve hx)
  · exact hf s.pending t hs.pending
  · trivial

theorem spared_readCompleted {α : Type} {id : String}
    {f : Option CompletedTransaction → Prog α} {d : Disk}
    (hf : ∀ found t, (id = rid → ∃ c, found = some c ∧ c.isStale = true) →
      Spared rid (f found) t) :
    Spared rid (ask (.readCompleted id) >>= f) d := by
  intro s _ hs
  refine ⟨trivial, fun x r t _ hx _ => ?_⟩
  obtain rfl | rfl := answer_readCompleted (answer_of_serve hx)
  · exact hf (s.completed id) t fun h => h ▸ hs.stale
  · trivial

namespace CeoWorkspace

theorem recoverPending_spared (d : Disk) : Spared rid recoverPending d := by
  refine spared_readPending fun found t h => ?_
  cases found with
  | none => exact spared_of_confined (confined_pure ()) t
  | some p => exact spared_of_confined (classifyPending_confined (h p rfl)) t

theorem readyBase_spared (d : Disk) : Spared rid readyBase d := by
  refine (recoverPending_spared d).bind fun _ t => spared_of_confined ?_ t
  exact throws_except syncCleanWorkspace_confined fun _ => confined_ask trivial

theorem withAtomicWorkspaceTransaction_spared (branch : String) (input : TransactionInput)
    (d : Disk) : Spared rid (withAtomicWorkspaceTransaction branch input) d := by
  refine spared_readCompleted fun found t h => ?_
  cases found with
  | some completed =>
    dsimp only
    split
    · exact spared_of_confined (confined_throw fun _ => rfl) t
    · exact spared_of_confined (confined_pure _) t
  | none =>
    have hne : input.requestId ≠ rid := fun he => by
      obtain ⟨c, hc, -⟩ := h he
      cases hc
    refine (recoverPending_spared t).bind fun _ t => spared_of_confined ?_ t
    refine throws_except (confined_ask trivial) fun pending => ?_
    split
    · exact confined_throw_bind fun _ => rfl
    · refine throws_except syncCleanWorkspace_confined fun _ => ?_
      refine throws_except (confined_ask trivial) fun (remote : Commit) => ?_
      split
      · exact confined_throw fun _ => rfl
      · exact runTransaction_confined branch hne

end CeoWorkspace

theorem handleRequest_spared (branch : String) (r : Request) (d : Disk) :
    Spared rid (handleRequest branch r) d := by
  cases r with
  | recover =>
    exact (CeoWorkspace.recoverPending_spared d).bind
      fun _ t => spared_of_confined CeoWorkspace.syncCleanWorkspace_confined t
  | ready => exact (CeoWorkspace.readyBase_spared d).bind fun _ _ => trivial
  | transaction input =>
    exact (CeoWorkspace.withAtomicWorkspaceTransaction_spared branch input d).bind
      fun _ _ => trivial

/-- **The record stays**, whatever the service and the others do. -/
theorem Archived.later {branch : String} {d d' : Disk} (h : Archived rid d)
    (later : Later branch d d') : Archived rid d' := by
  induction later with
  | refl => exact h
  | tail _ step ih =>
    cases step with
    | push c hc => exact ih.push hc
    | request r hv => exact Safe.visits archived_keeps (handleRequest_spared branch r _) ih hv

end archived

/-! ### a transaction that has been overtaken -/

section moved

variable {branch : String} {s t : Disk}

theorem ends_ask {e : Call} {r : Call.Answer e} (h : Ends surroundings .any (ask e).run s r t) :
    ∃ s' x, surroundings.Rely .any s s' ∧ answer s' e x = some r ∧
      t = if x.works then s'.work e else s' := by
  cases h with
  | call rely _ served rest =>
    obtain ⟨rfl, rfl⟩ := ends_done.1 rest
    obtain ⟨a, ha, hr⟩ := Option.map_eq_some_iff.1 served
    obtain ⟨rfl, rfl⟩ := Prod.mk.inj hr
    exact ⟨_, _, rely, ha, rfl⟩

theorem exists_other (id : String) : ∃ rid, id ≠ rid := 
  ⟨id ++ "'", fun h => by simpa using congrArg String.length h⟩

/-- The program throws no `STALE_REVISION` of the workspace. -/
abbrev Quiet {α : Type} (p : Prog α) : Prop :=
  Throws (fun _ => True) (fun f => f.isStale = false) p

theorem Confined.quiet {α : Type} {rid : String} {p : Prog α} (h : Confined rid false p) :
    Quiet p :=
  h.mono (fun _ _ => trivial) fun r hr f hf => by
    cases hs : f.isStale with
    | false => exact hs
    | true => exact absurd (hr f hf hs) (by decide)

theorem quiet_ask (e : Call) : Quiet (ask e) :=
  ⟨trivial, fun _ hr f hf => hr f hf⟩

theorem Quiet.not_stale {α : Type} {p : Prog α} {e : Failure} (hp : Quiet p)
    (h : Ends surroundings .any p.run s (.error e) t) : e.isStale = false :=
  hp.ends (fun _ _ _ _ _ => genuine_of_serve) h e rfl

/-- A `STALE_REVISION` of a sequence whose first part throws none comes from the second. -/
theorem Quiet.rest {α β : Type} {x : Prog α} {f : α → Prog β} {e : Failure}
    (hx : Quiet x) (he : e.isStale = true)
    (h : Ends surroundings .any (x >>= f).run s (.error e) t) :
    ∃ a u, Ends surroundings .any x.run s (.ok a) u ∧
      Ends surroundings .any (f a).run u (.error e) t := by
  rcases ends_except.1 h with h | ⟨e', hx', he'⟩
  · exact h
  · cases he'
    exact absurd (hx.not_stale hx') (by simp [he])

theorem Confined.archived {α : Type} {rid : String} {p : Prog α} {r : Except Failure α}
    (hp : Confined rid true p) (hs : Archived rid s) (h : Ends surroundings .any p.run s r t) :
    Archived rid t :=
  (Safe.ends archived_keeps (spared_of_confined hp s) hs h).1

theorem rely_keeps {s s' : Disk} (h : surroundings.Rely .any s s') :
    s'.completed = s.completed ∧ s'.pending = s.pending ∧ s'.made = s.made := by
  induction h with
  | refl => exact ⟨rfl, rfl, rfl⟩
  | tail _ step ih =>
    obtain ⟨c, -, hc⟩ := step
    obtain ⟨h1, h2, h3⟩ := thirdPartyPush_keeps hc
    exact ⟨h1.trans ih.1, h2.trans ih.2.1, h3.trans ih.2.2⟩

theorem answer_ok {d : Disk} {e : Call} {x : Fate} {a : e.Value}
    (h : answer d e x = some (.ok a)) : x = .ok ∨ e = .status ∨ ∃ id base, e = .prepare id base := by
  unfold answer at h
  split at h <;> simp_all

namespace CeoWorkspace

theorem archiveStalePending_archived {pending : PendingTransaction} {latest : Commit}
    (h : Ends surroundings .any (archiveStalePending pending latest).run s (.ok ()) t) :
    Archived pending.requestId t := by
  obtain ⟨⟨⟩, u, hwrite, h⟩ := (ends_except.1 h).resolve_right fun ⟨_, _, h⟩ => by cases h
  obtain ⟨⟨⟩, v, hremove, h⟩ := (ends_except.1 h).resolve_right fun ⟨_, _, h⟩ => by cases h
  obtain ⟨s', x, -, hx, rfl⟩ := ends_ask hwrite
  obtain ⟨u', y, hu, hy, rfl⟩ := ends_ask hremove
  obtain rfl : x = .ok := by simpa using answer_ok hx
  obtain rfl : y = .ok := by simpa using answer_ok hy
  have hv : Archived pending.requestId (u'.work .removePending) := by
    refine ⟨⟨pending.superseded latest, ?_, rfl⟩, fun p hp => by cases hp⟩
    show u'.completed pending.requestId = _
    rw [(rely_keeps hu).1]
    exact update_self _ _ _
  exact Confined.archived (confined_ask (e := .discardWorktree) trivial) hv h

variable {input : TransactionInput}

theorem syncCleanWorkspace_quiet : Quiet syncCleanWorkspace :=
  (@syncCleanWorkspace_confined "" _).quiet

theorem recoverPending_quiet : Quiet recoverPending := by
  refine ⟨trivial, fun r hr => ?_⟩
  match r with
  | .error e => exact fun f hf => hr f (congrArg Except.error (Except.error.inj hf))
  | .ok none => exact fun _ h => by cases h
  | .ok (some pending) =>
    obtain ⟨rid, hne⟩ := exists_other pending.requestId
    exact (classifyPending_confined hne).quiet

theorem readyBase_quiet : Quiet readyBase :=
  throws_except recoverPending_quiet fun _ =>
    throws_except syncCleanWorkspace_quiet fun _ => quiet_ask .resolveHead

theorem pushCommitted_archived {pending : PendingTransaction}
    (h : Ends surroundings .any (pushCommitted branch pending).run s
      (.error (.movedDuring branch)) t) : Archived pending.requestId t := by
  obtain ⟨rid, hne⟩ := exists_other pending.requestId
  obtain ⟨-, s₁, -, h⟩ := (quiet_ask .fetch).rest rfl h
  obtain ⟨latest, s₂, -, h⟩ := (quiet_ask .resolveOrigin).rest rfl h
  by_cases hlatest : (latest : Commit) = pending.baseCommit
  · rw [if_neg (not_not.2 hlatest)] at h
    exact absurd ((publish_confined hne).quiet.not_stale h) (by simp [Failure.isStale, Failure.movedDuring])
  · rw [if_pos hlatest] at h
    obtain ⟨⟨⟩, s₃, harchive, h⟩ := (archiveStalePending_confined hne latest).quiet.rest rfl h
    obtain ⟨⟨⟩, s₄, hsync, h⟩ := syncCleanWorkspace_quiet.rest rfl h
    obtain ⟨-, rfl⟩ := ends_done.1 h
    exact Confined.archived syncCleanWorkspace_confined
      (archiveStalePending_archived harchive) hsync

theorem runTransaction_archived
    (h : Ends surroundings .any (runTransaction branch input).run s
      (.error (.movedDuring branch)) t) : Archived input.requestId t := by
  obtain ⟨rid, hne⟩ := exists_other input.requestId
  obtain ⟨prepared, s₁, -, h⟩ := (quiet_ask (.prepare _ _)).rest rfl h
  cases prepared with
  | none =>
    exact absurd ((recordNoop_confined hne).quiet.not_stale h) (by simp [Failure.isStale, Failure.movedDuring])
  | some commit =>
    obtain ⟨-, s₂, -, h⟩ := (quiet_ask (.writePending _)).rest rfl h
    exact pushCommitted_archived h

theorem superseded_ne_moved (rid : String) : Failure.superseded rid ≠ .movedDuring branch := by
  intro h
  have h := congrArg (fun s : String => s.toList.head?) (Failure.ceo.inj h).2
  simp at h

theorem changed_ne_moved : Failure.changedSinceRead branch ≠ .movedDuring branch := by
  intro h
  have h := congrArg String.length (Failure.ceo.inj h).2
  simp only [String.length_append, Nat.add_left_cancel_iff] at h
  exact absurd h (by decide)

/-- **A transaction that reports that the branch moved has been archived.** -/
theorem moved_archived
    (h : Ends surroundings .any (withAtomicWorkspaceTransaction branch input).run s
      (.error (.movedDuring branch)) t) : Archived input.requestId t := by
  obtain ⟨found, s₁, -, h⟩ := (quiet_ask (.readCompleted _)).rest rfl h
  cases found with
  | some completed =>
    dsimp only at h
    split at h
    · exact absurd (Except.error.inj (ends_done.1 h).1).symm (superseded_ne_moved _)
    · cases (ends_done.1 h).1
  | none =>
    obtain ⟨-, s₂, -, h⟩ := recoverPending_quiet.rest rfl h
    obtain ⟨pending, s₃, -, h⟩ := (quiet_ask .readPending).rest rfl h
    cases pending with
    | some pending =>
      exact absurd (ends_done.1 h).1 (by simp [Failure.pushPending, Failure.movedDuring])
    | none =>
      obtain ⟨-, s₄, -, h⟩ := syncCleanWorkspace_quiet.rest rfl h
      obtain ⟨remote, s₅, -, h⟩ := (quiet_ask .resolveOrigin).rest rfl h
      by_cases hremote : (remote : Commit) = input.baseCommit
      · rw [if_neg (not_not.2 hremote)] at h
        exact runTransaction_archived h
      · rw [if_pos hremote] at h
        exact absurd (Except.error.inj (ends_done.1 h).1).symm changed_ne_moved

/-- An archived request throws, and touches nothing. -/
theorem archived_throws {r : Except Failure CompletedTransaction}
    (hs : Archived input.requestId s)
    (h : Ends surroundings .any (withAtomicWorkspaceTransaction branch input).run s r t) :
    (r = .error (.superseded input.requestId) ∨ r = .error .raw) ∧
      surroundings.Rely .any s t := by
  have asked {r : Call.Answer (.readCompleted input.requestId)} {u : Disk}
      (h : Ends surroundings .any (ask (.readCompleted input.requestId)).run s r u) :
      (r = .ok (u.completed input.requestId) ∨ r = .error .raw) ∧ surroundings.Rely .any s u := by
    obtain ⟨s', x, rely, ha, hu⟩ := ends_ask h
    obtain rfl : u = s' := by rw [hu]; split <;> rfl
    exact ⟨answer_readCompleted ha, rely⟩
  rcases ends_except.1 h with ⟨found, u, hask, h⟩ | ⟨e, hask, rfl⟩
  · obtain ⟨hfound, rely⟩ := asked hask
    obtain ⟨c, hc, hstale⟩ := hs.stale
    rw [← (rely_keeps rely).1] at hc
    rw [hc] at hfound
    obtain rfl := Except.ok.inj (hfound.resolve_right (by simp))
    dsimp only at h
    rw [if_pos hstale] at h
    obtain ⟨rfl, rfl⟩ := ends_done.1 h
    exact ⟨.inl rfl, rely⟩
  · obtain ⟨he, rely⟩ := asked hask
    obtain rfl := Except.error.inj (he.resolve_left (by simp))
    exact ⟨.inr rfl, rely⟩

end CeoWorkspace

end moved

end Ceo.Workspace
