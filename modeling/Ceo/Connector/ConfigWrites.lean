import Mathlib.Logic.Function.Basic
import Ceo.Lib.Transition

/-!
# Commands that write `config.json`

Each runs in a process of its own. `target_add`, `target_bind`,
`target_remove` and `project_detach` read the file first and take `state.lock`
later; the others read it under the lock (`targets.rs`, `projects.rs`).
-/

namespace Ceo.Connector.ConfigWrites

open Ceo.Lib

structure LocalExecutorConfig where
  kind : String
  agentId : String
  command : Option String
  model : Option String
  deriving DecidableEq, Repr

structure LocalTarget where
  localPath : String
  executor : Option LocalExecutorConfig
  deriving DecidableEq, Repr

/-- `config.targets` -/
abbrev Targets := String → Option LocalTarget

/-! ### the commands -/

/-- A command, with the target id it resolves or is given by the server. -/
inductive Command where
  | targetAdd (targetId localPath : String) (executor : Option LocalExecutorConfig)
  | targetBind (targetId localPath : String) (executor : Option LocalExecutorConfig)
  | targetRemove (targetId : String)
  | targetSetAgent (targetId agentId agentCommand : String)
  | targetSetModel (targetId : String) (model : Option String)
  | pruneStaleLocalMappings (serverMap : List String)
  | projectDetach (targetId : String)
  deriving DecidableEq, Repr

/-- Whether the command saves the copy that it has read before the lock. -/
def Command.savesEarlyCopy : Command → Bool
  | .targetAdd .. | .targetBind .. | .targetRemove _ | .projectDetach _ => true
  | .targetSetAgent .. | .targetSetModel .. | .pruneStaleLocalMappings _ => false

/-- What a command does to the targets. -/
inductive Edit where
  | insert (targetId : String) (target : LocalTarget)
  | remove (targetId : String)
  | setAgent (targetId agentId agentCommand : String)
  | setModel (targetId : String) (model : Option String)
  | removeAll (stale : String → Bool)

inductive Applied where
  | error
  /-- Nothing to save. -/
  | keep
  | save (targets : Targets)

namespace Edit

def apply : Edit → Targets → Applied
  | .insert targetId target, c => .save (Function.update c targetId (some target))
  | .remove targetId, c =>
    if (c targetId).isSome then .save (Function.update c targetId none) else .keep
  | .setAgent targetId agentId agentCommand, c =>
    match c targetId with
    | none => .error
    | some target =>
      let preservedModel := target.executor.bind (·.model)
      .save (Function.update c targetId
        (some { target with executor := some ⟨"orca_tui", agentId, some agentCommand, preservedModel⟩ }))
  | .setModel targetId model, c =>
    match c targetId with
    | none => .error
    | some target =>
      match target.executor with
      | none => .error
      | some executor =>
        .save (Function.update c targetId
          (some { target with executor := some { executor with model := model } }))
  | .removeAll stale, c => .save fun targetId => if stale targetId then none else c targetId

/-- The targets after the edit. -/
def result (e : Edit) (c : Targets) : Targets :=
  match e.apply c with
  | .save c => c
  | _ => c

end Edit

/-- The stale ids are those of the copy. -/
def Command.edit (copy : Targets) : Command → Edit
  | .targetAdd targetId localPath executor | .targetBind targetId localPath executor =>
    .insert targetId ⟨localPath, executor⟩
  | .targetRemove targetId | .projectDetach targetId => .remove targetId
  | .targetSetAgent targetId agentId agentCommand => .setAgent targetId agentId agentCommand
  | .targetSetModel targetId model => .setModel targetId model
  | .pruneStaleLocalMappings serverMap =>
    .removeAll fun targetId => (copy targetId).isSome && !serverMap.contains targetId

/-! ### the processes -/

inductive Stage where
  | start
  | loaded (copy : Targets)
  | locked (copy : Targets)
  | editing (base : Targets) (edit : Edit)
  | wrote (edit : Edit)
  | done (edit : Edit)
  /-- A prune that has found the lock taken, and is content. -/
  | skipped
  /-- With the edit that is in the file all the same. -/
  | failed (edit : Option Edit)

namespace Stage

def holds : Stage → Bool
  | .locked _ | .editing .. | .wrote _ => true
  | _ => false

/-- The edit that is in the file. -/
def written : Stage → Option Edit
  | .wrote e | .done e => some e
  | .failed e => e
  | _ => none

end Stage

variable {ι : Type} [DecidableEq ι]

structure State (ι : Type) where
  file : Targets
  lock : Option ι
  stage : ι → Stage

namespace State

variable (s : State ι) (p : ι)

def goto (stage : Stage) : State ι := { s with stage := Function.update s.stage p stage }

def release (stage : Stage) : State ι := { s.goto p stage with lock := none }

end State

inductive Label (ι : Type) where
  | load (p : ι)
  | lock (p : ι)
  /-- Fixes what is edited: the early copy, or the file as it is now. -/
  | read (p : ι)
  | write (p : ι)
  | finish (p : ι)
  | skip (p : ι)
  /-- Any error: of the server, of a guard, of the lock, of a file. -/
  | fail (p : ι)

def step (cmds : ι → Command) (s : State ι) : Label ι → Option (State ι)
  | .load p =>
    match s.stage p with
    | .start => some (s.goto p (.loaded s.file))
    | _ => none
  | .lock p =>
    match s.stage p, s.lock with
    | .loaded copy, none => some { s.goto p (.locked copy) with lock := some p }
    | _, _ => none
  | .read p =>
    match s.stage p with
    | .locked copy =>
      let base := if (cmds p).savesEarlyCopy then copy else s.file
      some (s.goto p (.editing base ((cmds p).edit copy)))
    | _ => none
  | .write p =>
    match s.stage p with
    | .editing base edit =>
      match edit.apply base with
      | .error => some (s.release p (.failed none))
      | .keep => some (s.goto p (.wrote edit))
      | .save targets => some { s.goto p (.wrote edit) with file := targets }
    | _ => none
  | .finish p =>
    match s.stage p with
    | .wrote edit => some (s.release p (.done edit))
    | _ => none
  | .skip p =>
    match s.stage p, cmds p with
    | .loaded _, .pruneStaleLocalMappings _ => some (s.goto p .skipped)
    | _, _ => none
  | .fail p =>
    match s.stage p with
    | .start | .loaded _ => some (s.goto p (.failed none))
    | .locked _ | .editing .. => some (s.release p (.failed none))
    | .wrote edit => some (s.release p (.failed (some edit)))
    | _ => none

def system (init : Targets) (cmds : ι → Command) : LTS (State ι) (Label ι) :=
  .ofOption (fun s => s = ⟨init, none, fun _ => .start⟩) (step cmds)

/-- A command that saves its early copy takes the lock while the file is still that copy. -/
def Timely (cmds : ι → Command) (s : State ι) : Label ι → Prop
  | .lock p => ∀ copy, s.stage p = .loaded copy → (cmds p).savesEarlyCopy = true → copy = s.file
  | _ => True

/-! ### one after the other -/

/-- What the edits make of the targets, in this order. -/
def serial (init : Targets) (order : List (ι × Edit)) : Targets :=
  order.foldl (fun c x => x.2.result c) init

structure Inv (init : Targets) (cmds : ι → Command) (s : State ι) : Prop where
  lock : ∀ p, s.lock = some p ↔ (s.stage p).holds = true
  locked : ∀ p copy, s.stage p = .locked copy → (cmds p).savesEarlyCopy = true → copy = s.file
  editing : ∀ p base edit, s.stage p = .editing base edit → base = s.file
  order : ∃ order : List (ι × Edit), (order.map Prod.fst).Nodup ∧
    (∀ p e, (p, e) ∈ order ↔ (s.stage p).written = some e) ∧ s.file = serial init order

section runs

variable {init : Targets} {cmds : ι → Command} {s t : State ι} {p : ι}

@[simp] theorem goto_stage (stage : Stage) (q : ι) :
    (s.goto p stage).stage q = if q = p then stage else s.stage q := by
  unfold State.goto
  simp only [Function.update_apply]

@[simp] theorem goto_file (stage : Stage) : (s.goto p stage).file = s.file := rfl
@[simp] theorem goto_lock (stage : Stage) : (s.goto p stage).lock = s.lock := rfl
@[simp] theorem release_stage (stage : Stage) (q : ι) :
    (s.release p stage).stage q = if q = p then stage else s.stage q := goto_stage stage q
@[simp] theorem release_file (stage : Stage) : (s.release p stage).file = s.file := rfl
@[simp] theorem release_lock (stage : Stage) : (s.release p stage).lock = none := rfl

/-- A step of one process that writes nothing. -/
theorem Inv.quiet (inv : Inv init cmds s) {stage : Stage} {lock : Option ι}
    (hlock : ∀ q, lock = some q ↔ (if q = p then stage else s.stage q).holds = true)
    (hlocked : ∀ copy, stage = .locked copy → (cmds p).savesEarlyCopy = true → copy = s.file)
    (hediting : ∀ base edit, stage = .editing base edit → base = s.file)
    (hwritten : stage.written = (s.stage p).written) :
    Inv init cmds { s.goto p stage with lock := lock } where
  lock q := by simpa using hlock q
  locked q copy hq := by
    simp only [goto_stage] at hq
    split at hq
    · next h => exact h ▸ hlocked copy hq
    · exact inv.locked q copy hq
  editing q base edit hq := by
    simp only [goto_stage] at hq
    split at hq
    · exact hediting base edit hq
    · exact inv.editing q base edit hq
  order := by
    obtain ⟨order, nodup, mem, file⟩ := inv.order
    refine ⟨order, nodup, fun q e => ?_, file⟩
    simp only [goto_stage]
    split
    · next h =>
      subst h
      rw [mem, hwritten]
    · exact mem q e

theorem Inv.lock_same (inv : Inv init cmds s) {stage : Stage}
    (h : stage.holds = (s.stage p).holds) (q : ι) :
    s.lock = some q ↔ (if q = p then stage else s.stage q).holds = true := by
  rw [inv.lock q]
  split
  · next hq => rw [hq, h]
  · rfl

/-- Who lets go of the lock was the only one to hold it. -/
theorem Inv.lock_release (inv : Inv init cmds s) {stage : Stage}
    (held : (s.stage p).holds = true) (h : stage.holds = false) (q : ι) :
    none = some q ↔ (if q = p then stage else s.stage q).holds = true := by
  have hp := (inv.lock p).2 held
  simp only [reduceCtorEq, false_iff]
  split
  · simp [h]
  · next hq =>
    intro hold
    have := (inv.lock q).2 hold
    rw [hp] at this
    exact hq (Option.some.inj this).symm

theorem Inv.write (inv : Inv init cmds s) {base : Targets} {edit : Edit}
    (hp : s.stage p = .editing base edit) {file : Targets} (hfile : file = edit.result s.file) :
    Inv init cmds { s.goto p (.wrote edit) with file := file } where
  lock q := by
    have same : (Stage.wrote edit).holds = (s.stage p).holds := by rw [hp]; rfl
    simpa using inv.lock_same same q
  locked q copy hq := by
    simp only [goto_stage] at hq
    split at hq
    · cases hq
    · next hne =>
      -- a second process under the lock
      have := (inv.lock q).2 (by rw [hq]; rfl)
      rw [(inv.lock p).2 (by rw [hp]; rfl)] at this
      exact absurd (Option.some.inj this).symm hne
  editing q base' edit' hq := by
    simp only [goto_stage] at hq
    split at hq
    · cases hq
    · next hne =>
      have := (inv.lock q).2 (by rw [hq]; rfl)
      rw [(inv.lock p).2 (by rw [hp]; rfl)] at this
      exact absurd (Option.some.inj this).symm hne
  order := by
    obtain ⟨order, nodup, mem, same⟩ := inv.order
    have fresh : p ∉ order.map Prod.fst := by
      intro h
      obtain ⟨⟨q, e⟩, hx, rfl⟩ := List.mem_map.1 h
      have := (mem q e).1 hx
      rw [hp] at this
      cases this
    refine ⟨order ++ [(p, edit)], ?_, fun q e => ?_, ?_⟩
    · rw [List.map_append, List.nodup_append]
      refine ⟨nodup, by simp, fun a ha b hb => ?_⟩
      rw [List.mem_singleton.1 hb]
      rintro rfl
      exact fresh ha
    · simp only [goto_stage, List.mem_append, List.mem_singleton, Prod.mk.injEq]
      split
      · next h =>
        subst h
        refine ⟨?_, fun h => .inr ⟨rfl, (Option.some.inj h).symm⟩⟩
        rintro (h | ⟨-, rfl⟩)
        · exact absurd (List.mem_map_of_mem (f := Prod.fst) h) fresh
        · rfl
      · next h => simp [h, mem]
    · rw [hfile, same]
      unfold serial
      rw [List.foldl_append]
      rfl

theorem inv_step {a : Label ι} (inv : Inv init cmds s) (timely : Timely cmds s a)
    (h : step cmds s a = some t) : Inv init cmds t := by
  cases a with
  | load p =>
    simp only [step] at h
    split at h
    · next hp =>
      cases h
      exact inv.quiet (inv.lock_same (by rw [hp]; rfl)) (by simp) (by simp) (by rw [hp]; rfl)
    · cases h
  | lock p =>
    simp only [step] at h
    split at h
    · next copy hp free =>
      cases h
      refine inv.quiet (fun q => ?_) (fun copy' hc early => ?_) (by simp) (by rw [hp]; rfl)
      · split
        · next hq => simp [hq, Stage.holds]
        · next hq =>
          rw [← inv.lock q, free]
          simp only [Option.some.injEq, reduceCtorEq, iff_false]
          exact fun h => hq h.symm
      · cases hc
        exact timely copy hp early
    · cases h
  | read p =>
    simp only [step] at h
    split at h
    · next copy hp =>
      cases h
      refine inv.quiet (inv.lock_same (by rw [hp]; rfl)) (by simp) (fun base edit hb => ?_)
        (by rw [hp]; rfl)
      cases hb
      split
      · next early => exact inv.locked p copy hp early
      · rfl
    · cases h
  | write p =>
    simp only [step] at h
    split at h
    · next base edit hp =>
      have hbase := inv.editing p base edit hp
      split at h
      · cases h
        exact inv.quiet (inv.lock_release (by rw [hp]; rfl) rfl) (by simp) (by simp)
          (by rw [hp]; rfl)
      · next happly =>
        cases h
        have same : s.file = edit.result s.file := by rw [Edit.result, ← hbase, happly]
        exact inv.write hp same
      · next targets happly =>
        cases h
        refine inv.write hp ?_
        rw [Edit.result, ← hbase, happly]
    · cases h
  | finish p =>
    simp only [step] at h
    split at h
    · next edit hp =>
      cases h
      exact inv.quiet (inv.lock_release (by rw [hp]; rfl) rfl) (by simp) (by simp)
        (by rw [hp]; rfl)
    · cases h
  | skip p =>
    simp only [step] at h
    split at h
    · next hp _ =>
      cases h
      exact inv.quiet (inv.lock_same (by rw [hp]; rfl)) (by simp) (by simp) (by rw [hp]; rfl)
    · cases h
  | fail p =>
    simp only [step] at h
    split at h
    · next hp =>
      cases h
      exact inv.quiet (inv.lock_same (by rw [hp]; rfl)) (by simp) (by simp) (by rw [hp]; rfl)
    · next hp =>
      cases h
      exact inv.quiet (inv.lock_same (by rw [hp]; rfl)) (by simp) (by simp) (by rw [hp]; rfl)
    · next hp =>
      cases h
      exact inv.quiet (inv.lock_release (by rw [hp]; rfl) rfl) (by simp) (by simp)
        (by rw [hp]; rfl)
    · next hp =>
      cases h
      exact inv.quiet (inv.lock_release (by rw [hp]; rfl) rfl) (by simp) (by simp)
        (by rw [hp]; rfl)
    · next hp =>
      cases h
      exact inv.quiet (inv.lock_release (by rw [hp]; rfl) rfl) (by simp) (by simp)
        (by rw [hp]; rfl)
    · cases h

/-- In a timely run the file is what the edits make of it one after the other. -/
theorem timely_inv (h : ((system init cmds).guard (Timely cmds)).Reachable s) :
    Inv init cmds s := by
  have start {s : State ι} (hs : (system init cmds).Init s) : Inv init cmds s := by
    cases hs
    exact {
      lock := by simp [Stage.holds]
      locked := by simp
      editing := by simp
      order := ⟨[], List.nodup_nil, by simp [Stage.written], rfl⟩ }
  exact LTS.Reachable.inv (L := (system init cmds).guard (Timely cmds)) start
    (fun inv hstep => inv_step inv hstep.1 hstep.2) h

end runs

/-- Two edits are in the file, one on top of the other. -/
def Both (init file : Targets) (e e' : Edit) : Prop :=
  file = e'.result (e.result init) ∨ file = e.result (e'.result init)

theorem order_of_two {order : List (Bool × Edit)} {e e' : Edit}
    (nodup : (order.map Prod.fst).Nodup) (he : (false, e) ∈ order) (he' : (true, e') ∈ order) :
    order = [(false, e), (true, e')] ∨ order = [(true, e'), (false, e)] := by
  match order, nodup, he, he' with
  | [], _, he, _ => cases he
  | [x], _, he, he' =>
    rw [← List.mem_singleton.1 he] at he'
    cases List.mem_singleton.1 he'
  | [x, y], _, he, he' =>
    simp only [List.mem_cons, List.not_mem_nil, or_false] at he he'
    rcases he with rfl | rfl
    · exact .inl (by rw [he'.resolve_left (by simp)])
    · exact .inr (by rw [he'.resolve_right (by simp)])
  | x :: y :: z :: rest, nodup, _, _ =>
    simp only [List.map_cons, List.nodup_cons, List.mem_cons, not_or] at nodup
    obtain ⟨⟨hxy, hxz, -⟩, ⟨hyz, -⟩, -⟩ := nodup
    revert hxy hxz hyz
    cases x.1 <;> cases y.1 <;> cases z.1 <;> simp

/-- Two commands, each of which takes the lock while its early copy is still the file, lose no
edit. -/
theorem no_lost_update (init : Targets) (cmds : Bool → Command) (s : State Bool) (e e' : Edit)
    (reached : ((system init cmds).guard (Timely cmds)).Reachable s)
    (first : s.stage false = .done e) (second : s.stage true = .done e') :
    Both init s.file e e' := by
  obtain ⟨order, nodup, mem, file⟩ := (timely_inv reached).order
  have he : (false, e) ∈ order := (mem _ _).2 (by rw [first]; rfl)
  have he' : (true, e') ∈ order := (mem _ _).2 (by rw [second]; rfl)
  unfold Both
  rw [file]
  rcases order_of_two nodup he he' with rfl | rfl
  · exact .inl rfl
  · exact .inr rfl

/-- Two projects that are added at once. -/
def twoAdds : Bool → Command
  | false => .targetAdd "target-1" "/work/one" none
  | true => .targetAdd "target-2" "/work/two" none

/-- The second command waits for the lock with the file it has read before, and saves that. -/
theorem target_add_lost :
    ∃ (s : State Bool) (e e' : Edit), (system (fun _ => none) twoAdds).Reachable s ∧
      s.stage false = .done e ∧ s.stage true = .done e' ∧ ¬Both (fun _ => none) s.file e e' := by
  refine ⟨_, .insert "target-1" ⟨"/work/one", none⟩, .insert "target-2" ⟨"/work/two", none⟩,
    ⟨_, [.load false, .load true, .lock false, .read false, .write false, .finish false,
      .lock true, .read true, .write true, .finish true], rfl, LTS.run_ofOption _ rfl⟩,
    rfl, rfl, ?_⟩
  rintro (h | h)
  · exact absurd (congrFun h "target-1") (by decide)
  · exact absurd (congrFun h "target-1") (by decide)

/-- The same commands, the second one started when the first has finished. -/
theorem no_lost_update_twoAdds :
    ∃ (s : State Bool) (e e' : Edit), s.stage false = .done e ∧ s.stage true = .done e' ∧
      Both (fun _ => none) s.file e e' := by
  have run : ∃ s : State Bool, ((system (fun _ => none) twoAdds).guard (Timely twoAdds)).Run
      ⟨fun _ => none, none, fun _ => .start⟩ [.load false, .lock false, .read false, .write false,
        .finish false, .load true, .lock true, .read true, .write true, .finish true] s ∧
      s.stage false = .done (.insert "target-1" ⟨"/work/one", none⟩) ∧
      s.stage true = .done (.insert "target-2" ⟨"/work/two", none⟩) := by
    refine ⟨_, .cons ⟨trivial, rfl⟩ (.cons ⟨?_, rfl⟩ (.cons ⟨trivial, rfl⟩ (.cons ⟨trivial, rfl⟩
      (.cons ⟨trivial, rfl⟩ (.cons ⟨trivial, rfl⟩ (.cons ⟨?_, rfl⟩ (.cons ⟨trivial, rfl⟩
        (.cons ⟨trivial, rfl⟩ (.cons ⟨trivial, rfl⟩ (.nil _)))))))))), rfl, rfl⟩
    · intro copy hc _
      cases hc
      rfl
    · intro copy hc _
      cases hc
      rfl
  obtain ⟨s, run, first, second⟩ := run
  exact ⟨s, _, _, first, second, no_lost_update (fun _ => none) twoAdds s _ _
    ⟨_, _, rfl, run⟩ first second⟩

end Ceo.Connector.ConfigWrites
