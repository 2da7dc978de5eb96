import Ceo.Workspace.Lock
import Mathlib.Tactic.SplitIfs

/-!
# Mutual exclusion of the workspace lock

A recovery condemns a directory in one step and removes it in later ones, and
what it judges by is not what the holder of the directory is bound by: the age
of a directory whose holder is slow, or the map of its own process, which says
nothing between the write of `owner.json` and the registration. `Calm` leaves
these branches out, and one more, in which the directory is replaced between
the inspection and the removal. Without them a held directory stays.
-/

namespace Ceo.Workspace.Lock

open Ceo.Lib Function

/-! ### the invariant -/

/-- What a held directory may be told apart by: the call that opened or wrote its owner. -/
def OwnerFile.op : OwnerFile → Option Op
  | .absent => none
  | .opened o | .written o => some o

namespace Recovery

/-- The directory the recovery has inspected. -/
def seen : Recovery → Option Nat
  | .reading | .stating => none
  | .aging _ g | .judging _ g | .rechecking _ g | .unlinking g | .removing g => some g

/-- The directory the recovery has found stale. -/
def condemns : Recovery → Option Nat
  | .reading | .stating | .aging _ _ | .judging _ _ => none
  | .rechecking _ g | .unlinking g | .removing g => some g

theorem seen_of_condemns {r : Recovery} {g : Nat} (h : r.condemns = some g) : r.seen = some g := by
  cases r <;> simp_all [condemns, seen]

end Recovery

namespace World

/-- No live call holds the directory `g`. -/
def Abandoned (w : World) (g : Nat) : Prop := ∀ d ∈ w.dir, d.gen = g → ¬ w.Live d.maker

/-- The directory at the path is still `g`, if there is one. -/
def Unreplaced (w : World) (g : Nat) : Prop := ∀ d ∈ w.dir, d.gen = g

end World

/-- The recovery of process `p`, in `r`, may take the step: it finds a directory stale only when
the call that made it has let go of it or is dead, and it removes the directory it inspected. -/
def Recovery.Calm (w : World) (p : Nat) : RecAct → Recovery → Prop
  | .age, .aging mtimeMs g => lockSetupGraceMs ≤ w.nowMs - mtimeMs → w.Abandoned g
  | .judge _, .judging o _ => o.proc = p → w.active p ≠ some o → ¬ w.Live o
  | .unlink, .unlinking g | .rmdir, .removing g => w.Unreplaced g
  | _, _ => True

/-- **The condition.** -/
def Calm (w : World) : Event → Prop
  | .recovery p a => ∀ r ∈ w.recovery p, r.Calm w p a
  | _ => True

/-- What a recovery goes by is true. -/
structure Recovery.Sound (w : World) (r : Recovery) : Prop where
  seen : ∀ g, r.seen = some g → g < w.nextGen
  judged : ∀ o g d, r = .judging o g → w.dir = some d → d.gen = g → d.maker = o
  condemned : ∀ g, r.condemns = some g → w.Abandoned g

theorem Recovery.Sound.reading {w : World} : Recovery.reading.Sound w :=
  ⟨fun _ h => (by cases h), fun _ _ _ h => (by cases h), fun _ h => (by cases h)⟩

theorem Recovery.Sound.stating {w : World} : Recovery.stating.Sound w :=
  ⟨fun _ h => (by cases h), fun _ _ _ h => (by cases h), fun _ h => (by cases h)⟩

structure Inv (w : World) : Prop where
  /-- A live holder's directory is there. -/
  held : ∀ o, w.Live o → ∃ d, w.dir = some d ∧ d.maker = o
  past : ∀ d, w.dir = some d → (w.phase d.maker).waits = false
  fresh : ∀ d, w.dir = some d → d.gen < w.nextGen
  /-- Nobody but its maker puts an owner in a directory. -/
  mine : ∀ d o, w.dir = some d → d.owner.op = some o → d.maker = o
  sound : ∀ p r, w.recovery p = some r → r.Sound w

theorem Inv.init : Inv World.init where
  held o h := by simp [World.Live, World.init, Phase.holds] at h
  past d h := by simp [World.init] at h
  fresh d h := by simp [World.init] at h
  mine d o h := by simp [World.init] at h
  sound p r h := by simp [World.init] at h

/-- Two live holders are one. -/
theorem Inv.exclusive {w : World} (hi : Inv w) {a b : Op} (ha : w.Live a) (hb : w.Live b) :
    a = b := by
  obtain ⟨d, hd, rfl⟩ := hi.held a ha
  obtain ⟨d', hd', rfl⟩ := hi.held b hb
  rw [hd] at hd'
  cases hd'
  rfl

theorem World.Runs.live {w : World} {o : Op} (h : w.Runs o) : w.Live o :=
  ⟨h.1, by rw [h.2]; rfl⟩

/-! ### what a step does to the directory -/

/-- The directory is the one it was, made by the same call, with no new owner but the maker. -/
def Dir.From (d' d : Dir) : Prop :=
  d'.gen = d.gen ∧ d'.maker = d.maker ∧ ∀ o, d'.owner.op = some o → d.owner.op = some o ∨ d.maker = o

theorem Dir.From.refl (d : Dir) : d.From d := ⟨rfl, rfl, fun _ h => .inl h⟩

theorem Dir.From.unlinked (d : Dir) (now : Nat) : (d.unlinked now).From d := by
  unfold Dir.unlinked
  split
  · exact .refl d
  · exact ⟨rfl, rfl, fun o h => by simp [OwnerFile.op] at h⟩

theorem Dir.From.openedBy (d : Dir) (now : Nat) : (d.openedBy d.maker now).From d :=
  ⟨rfl, rfl, fun o h => .inr (by simpa [Dir.openedBy, OwnerFile.op] using h)⟩

theorem Dir.From.writtenBy (d : Dir) (o : Op) : (d.writtenBy o).From d := by
  unfold Dir.writtenBy
  split
  · next he => exact ⟨rfl, rfl, fun b h => .inl (by rw [he]; exact h)⟩
  · exact .refl d

theorem rmdir_eq_some {x : Option Dir} {d : Dir} (h : rmdir x = some d) : x = some d := by
  unfold rmdir at h
  split at h
  · exact h
  · split at h
    · cases h
    · exact h

/-- Every directory of `x'` comes from one of `x`. -/
def FromDir (x' x : Option Dir) : Prop := ∀ d', x' = some d' → ∃ d, x = some d ∧ d'.From d

theorem FromDir.refl (x : Option Dir) : FromDir x x := fun d h => ⟨d, h, .refl d⟩

theorem FromDir.map {f : Dir → Dir} (hf : ∀ d, (f d).From d) (x : Option Dir) :
    FromDir (x.map f) x := by
  intro d' h
  obtain ⟨d, hd, rfl⟩ := Option.map_eq_some_iff.1 h
  exact ⟨d, hd, hf d⟩

theorem FromDir.rmdir (x : Option Dir) : FromDir (rmdir x) x :=
  fun d h => ⟨d, rmdir_eq_some h, .refl d⟩

/-! ### the rule -/

/-- What most steps have in common: the directory is the old one or gone, nobody starts to hold or
goes back to waiting, and nobody who holds loses the directory. -/
structure Fade (w w' : World) : Prop where
  gen : w'.nextGen = w.nextGen
  dir : FromDir w'.dir w.dir
  live : ∀ o, w'.Live o → w.Live o ∧ (w.dir ≠ none → w'.dir ≠ none)
  waits : ∀ o, (w'.phase o).waits = true → (w.phase o).waits = true

namespace Fade

variable {w w' : World} (hf : Fade w w')

include hf

theorem not_waits {o : Op} (h : (w.phase o).waits = false) : (w'.phase o).waits = false :=
  Bool.eq_false_iff.2 fun h' => Bool.eq_false_iff.1 h (hf.waits o h')

theorem abandoned {g : Nat} (h : w.Abandoned g) : w'.Abandoned g := by
  intro d' hd' hg hl
  obtain ⟨d, hd, he⟩ := hf.dir d' hd'
  rw [he.2.1] at hl
  exact h d hd (he.1 ▸ hg) (hf.live _ hl).1

theorem sound {r : Recovery} (h : r.Sound w) : r.Sound w' where
  seen g hg := hf.gen ▸ h.seen g hg
  judged o g d' hr hd' hg := by
    obtain ⟨d, hd, he⟩ := hf.dir d' hd'
    rw [he.2.1]
    exact h.judged o g d hr hd (he.1 ▸ hg)
  condemned g hg := hf.abandoned (h.condemned g hg)

end Fade

/-- A fading step keeps the invariant if the recoveries after it are sound before it. -/
theorem Inv.fade {w w' : World} (hi : Inv w) (hf : Fade w w')
    (hr : ∀ p r, w'.recovery p = some r → r.Sound w) : Inv w' where
  held o hl := by
    have ⟨hl', hkeep⟩ := hf.live o hl
    obtain ⟨d, hd, hm⟩ := hi.held o hl'
    obtain ⟨d', hd'⟩ := Option.ne_none_iff_exists'.1 (hkeep (by rw [hd]; exact Option.some_ne_none d))
    obtain ⟨e, he, hf'⟩ := hf.dir d' hd'
    rw [hd] at he
    cases he
    exact ⟨d', hd', hf'.2.1.trans hm⟩
  past d' hd' := by
    obtain ⟨d, hd, he⟩ := hf.dir d' hd'
    rw [he.2.1]
    exact hf.not_waits (hi.past d hd)
  fresh d' hd' := by
    obtain ⟨d, hd, he⟩ := hf.dir d' hd'
    rw [he.1, hf.gen]
    exact hi.fresh d hd
  mine d' o hd' ho := by
    obtain ⟨d, hd, he⟩ := hf.dir d' hd'
    rw [he.2.1]
    rcases he.2.2 o ho with h | h
    · exact hi.mine d o hd h
    · exact h
  sound p r hp := hf.sound (hr p r hp)

/-! ### the calls -/

section Op

variable {w w' : World} {o : Op}

/-- The step of one call: its phase is `ph` after it. -/
theorem Fade.move {ph : Phase} (hp : w'.phase = update w.phase o ph) (hd : w'.dead = w.dead)
    (hgen : w'.nextGen = w.nextGen) (hdir : FromDir w'.dir w.dir)
    (hh : ph.holds = true → (w.phase o).holds = true)
    (hw : ph.waits = true → (w.phase o).waits = true)
    (hkeep : ∀ b, w'.Live b → w.dir ≠ none → w'.dir ≠ none) : Fade w w' where
  gen := hgen
  dir := hdir
  live b hb := by
    refine ⟨⟨hd ▸ hb.1, ?_⟩, hkeep b hb⟩
    have h := hb.2
    rw [hp] at h
    by_cases hbo : b = o
    · subst hbo
      exact hh (by simpa using h)
    · simpa [update_of_ne hbo] using h
  waits b hb := by
    rw [hp] at hb
    by_cases hbo : b = o
    · subst hbo
      exact hw (by simpa using hb)
    · simpa [update_of_ne hbo] using hb

/-- A step that leaves the directory alone. -/
theorem Fade.stay {ph : Phase} (hp : w'.phase = update w.phase o ph) (hd : w'.dead = w.dead)
    (hgen : w'.nextGen = w.nextGen) (hdir : w'.dir = w.dir)
    (hh : ph.holds = true → (w.phase o).holds = true)
    (hw : ph.waits = true → (w.phase o).waits = true) : Fade w w' :=
  .move hp hd hgen (hdir ▸ .refl _) hh hw fun _ _ h => hdir ▸ h

theorem map_ne_none {f : Dir → Dir} {x : Option Dir} (h : x ≠ none) : x.map f ≠ none := by
  cases x with
  | none => exact absurd rfl h
  | some d => exact Option.some_ne_none _

/-- **The creation.** The path is free, so nobody holds the lock. -/
theorem Inv.create (hi : Inv w) (hn : w.dir = none) :
    Inv ({ w with
      dir := some ⟨w.nextGen, o, w.nowMs, .absent⟩
      nextGen := w.nextGen + 1 }.setPhase o .made) where
  held b hb := by
    refine ⟨_, rfl, ?_⟩
    by_contra hbo
    obtain ⟨d, hd, -⟩ := hi.held b ⟨hb.1, by
      simpa [World.setPhase, update_of_ne (Ne.symm hbo)] using hb.2⟩
    rw [hn] at hd
    cases hd
  past d hd := by
    cases hd
    simp [World.setPhase, Phase.waits]
  fresh d hd := by
    cases hd
    exact Nat.lt_succ_self _
  mine d b hd hb := by
    cases hd
    cases hb
  sound p r hp := by
    have hs := hi.sound p r hp
    refine ⟨fun g hg => Nat.lt_succ_of_lt (hs.seen g hg), fun b g d hb hd hg => ?_,
      fun g hc d hd hg => ?_⟩
    -- the new directory has been seen by nobody
    · cases hd
      subst hb
      exact absurd hg.symm (Nat.ne_of_lt (hs.seen g rfl))
    · cases hd
      exact absurd hg.symm (Nat.ne_of_lt (hs.seen g (Recovery.seen_of_condemns hc)))

/-- What the holder `o` finds at the path is its own. -/
theorem Inv.own (hi : Inv w) (hl : w.Live o) {d : Dir} (hd : w.dir = some d) : d.maker = o := by
  obtain ⟨e, he, hm⟩ := hi.held o hl
  rw [hd] at he
  cases he
  exact hm

theorem Inv.op (hi : Inv w) (ha : w.dead o.proc = false) {a : OpAct}
    (h : opNext w o a = some w') : Inv w' := by
  cases a <;> unfold opNext at h <;> simp only at h
  case call =>
    split at h
    · next hp =>
      cases h
      exact hi.fade (.stay rfl rfl rfl rfl (by simp [Phase.holds]) (by simp [hp, Phase.waits])) hi.sound
    · cases h
  case createLockDir =>
    split at h
    · next hp =>
      split at h
      · cases h
        exact hi.fade (.stay rfl rfl rfl rfl (by simp [Phase.holds]) (by simp [hp, Phase.waits])) hi.sound
      · next hn =>
        cases h
        exact hi.create hn
    · cases h
  case catchBusy =>
    split at h
    · next hp =>
      cases h
      split
      · refine hi.fade (.stay rfl rfl rfl rfl (by simp [Phase.holds]) (by simp [hp, Phase.waits])) ?_
        intro p r hr
        simp only [World.setPhase, World.setRecovery] at hr
        by_cases hpo : p = o.proc
        · subst hpo
          simp only [update_self, Option.some.injEq] at hr
          subst hr
          exact .reading
        · exact hi.sound p r (by simpa [update_of_ne hpo] using hr)
      · exact hi.fade (.stay rfl rfl rfl rfl (by simp [Phase.holds]) (by simp [hp, Phase.waits])) hi.sound
    · cases h
      exact hi.fade (.stay rfl rfl rfl rfl (by simp [Phase.holds]) (by simp [Phase.waits])) hi.sound
    · cases h
  case resume =>
    split at h
    · next ok hp =>
      cases h
      refine hi.fade (.stay rfl rfl rfl rfl ?_ (by simp [hp, Phase.waits])) hi.sound
      cases ok <;> simp [Phase.holds]
    · cases h
  case openOwner =>
    split at h
    · next hp =>
      have hl : w.Live o := ⟨ha, by rw [hp]; rfl⟩
      split at h
      · cases h
        exact hi.fade (.stay rfl rfl rfl rfl (by simp [hp, Phase.holds]) (by simp [Phase.waits])) hi.sound
      · next d hd =>
        cases h
        have hm := hi.own hl hd
        refine hi.fade (.move rfl rfl rfl ?_ (by simp [hp, Phase.holds]) (by simp [Phase.waits])
          (fun _ _ _ => Option.some_ne_none _)) hi.sound
        intro d' hd'
        cases hd'
        exact ⟨d, hd, hm ▸ .openedBy d w.nowMs⟩
    · cases h
  case writeOwner =>
    split at h
    · next hp =>
      cases h
      exact hi.fade (.move rfl rfl rfl (.map (fun d => .writtenBy d o) _) (by simp [hp, Phase.holds])
        (by simp [Phase.waits]) (fun _ _ => map_ne_none)) hi.sound
    · cases h
  case enter =>
    split at h
    · next hp =>
      cases h
      exact hi.fade (.stay rfl rfl rfl rfl (by simp [hp, Phase.holds]) (by simp [Phase.waits])) hi.sound
    · cases h
  case finish =>
    split at h
    · next hp =>
      cases h
      exact hi.fade (.stay rfl rfl rfl rfl (by simp [hp, Phase.holds]) (by simp [Phase.waits])) hi.sound
    · cases h
  case readOwner =>
    split at h
    · next hp =>
      cases h
      refine hi.fade (.stay rfl rfl rfl rfl (by simp [hp, Phase.holds]) ?_) hi.sound
      split <;> simp [Phase.waits]
    · cases h
  case unlink =>
    split at h
    · next hp =>
      cases h
      exact hi.fade (.move rfl rfl rfl (.map (fun d => .unlinked d w.nowMs) _)
        (by simp [hp, Phase.holds]) (by simp [Phase.waits]) (fun _ _ => map_ne_none)) hi.sound
    · cases h
  case rmdir =>
    split at h
    · next hp =>
      have hl : w.Live o := ⟨ha, by rw [hp]; rfl⟩
      cases h
      refine hi.fade (.move rfl rfl rfl (.rmdir _) (by simp [Phase.holds]) (by simp [Phase.waits])
        ?_) hi.sound
      -- nobody else holds what `o` removes
      intro b hb
      have hbo : b ≠ o := by
        rintro rfl
        simpa [World.setPhase, Phase.holds] using hb.2
      have hb' : w.Live b := ⟨hb.1, by simpa [World.setPhase, World.setDir, update_of_ne hbo] using hb.2⟩
      exact absurd (hi.exclusive hb' hl) hbo
    · cases h
  case fail =>
    split at h
    · cases h
      exact hi.fade (.stay rfl rfl rfl rfl (by simp [Phase.holds]) (by simp [Phase.waits])) hi.sound
    all_goals first
      | cases h; done
      | next hp =>
        cases h
        exact hi.fade (.stay rfl rfl rfl rfl (by simp [hp, Phase.holds]) (by simp [Phase.waits])) hi.sound

end Op

/-! ### the recoveries -/

section Recovery

variable {w w' : World} {p : Nat}

/-- A recovery goes on, over the directory `x`. -/
theorem Inv.recover (hi : Inv w) {x : Option Dir} (hx : FromDir x w.dir)
    (hkeep : ∀ b, w.Live b → w.dir ≠ none → x ≠ none) {r : Recovery} (hr : r.Sound w) :
    Inv ((w.setDir x).setRecovery p (some r)) := by
  refine hi.fade ⟨rfl, hx, fun b hb => ⟨hb, hkeep b hb⟩, fun b hb => hb⟩ ?_
  intro q r' hq
  simp only [World.setRecovery, World.setDir] at hq
  by_cases hqp : q = p
  · subst hqp
    simp only [update_self, Option.some.injEq] at hq
    exact hq ▸ hr
  · exact hi.sound q r' (by simpa [update_of_ne hqp] using hq)

theorem Inv.recoverHere (hi : Inv w) {r : Recovery} (hr : r.Sound w) :
    Inv (w.setRecovery p (some r)) :=
  hi.recover (.refl w.dir) (fun _ _ h => h) hr

/-- The phases that a recovery settles were waiting and still are. -/
theorem settle_phase (w : World) (p : Nat) (ok : Bool) (o : Op) :
    ((w.settle p ok).phase o).holds = (w.phase o).holds ∧
      ((w.settle p ok).phase o).waits = (w.phase o).waits := by
  unfold World.settle
  simp only
  split
  · next h => simp [h.2, Phase.holds, Phase.waits]
  · exact ⟨rfl, rfl⟩

/-- A recovery ends, over the directory `x`. -/
theorem Inv.settle (hi : Inv w) {x : Option Dir} (hx : FromDir x w.dir)
    (hkeep : ∀ b, w.Live b → w.dir ≠ none → x ≠ none) (ok : Bool) :
    Inv ((w.setDir x).settle p ok) := by
  have hph := settle_phase (w.setDir x) p ok
  refine hi.fade ⟨rfl, hx, fun b hb => ?_, fun b hb => (hph b).2 ▸ hb⟩ ?_
  · have hb' : w.Live b := ⟨hb.1, (hph b).1 ▸ hb.2⟩
    exact ⟨hb', hkeep b hb'⟩
  · intro q r' hq
    simp only [World.settle, World.setDir] at hq
    by_cases hqp : q = p
    · subst hqp
      simp at hq
    · exact hi.sound q r' (by simpa [update_of_ne hqp] using hq)

theorem Inv.settleHere (hi : Inv w) (ok : Bool) : Inv (w.settle p ok) :=
  hi.settle (.refl w.dir) (fun _ _ h => h) ok

theorem readOwner_eq_owner {x : Option Dir} {o : Op} (h : readOwner x = .owner o) :
    ∃ d, x = some d ∧ d.owner = .written o := by
  unfold readOwner at h
  split at h
  · cases h
  · next d =>
    split at h
    · cases h
    · cases h
    · next b hb =>
      cases h
      exact ⟨d, rfl, hb⟩

/-- What a recovery knows once it has found the directory `g` stale. -/
theorem Inv.stale (hi : Inv w) {r r' : Recovery} {g : Nat} (hr : w.recovery p = some r)
    (hs : r.seen = some g) (ha : w.Abandoned g) (hs' : r'.seen = some g)
    (hj : ∀ o g, r' ≠ .judging o g) : r'.Sound w where
  seen g' hg := by
    rw [hs'] at hg
    cases hg
    exact (hi.sound p r hr).seen g hs
  judged o g' d h := absurd h (hj o g')
  condemned g' hc := by
    have := Recovery.seen_of_condemns hc
    rw [hs'] at this
    cases this
    exact ha

theorem Inv.recovery (hi : Inv w) {a : RecAct}
    (hc : Calm w (.recovery p a)) (h : recNext w p a = some w') : Inv w' := by
  cases a <;> unfold recNext at h <;> simp only at h
  case start =>
    split at h
    · cases h
      exact hi.recoverHere .reading
    · cases h
  case inspect =>
    split at h
    · next o d hr ho hd =>
      cases h
      obtain ⟨d', hd', hw⟩ := readOwner_eq_owner ho
      rw [hd] at hd'
      cases hd'
      refine hi.recoverHere
        ⟨fun g hg => ?_, fun b g e hb he hg => ?_, fun g hg => (by cases hg)⟩
      · cases hg
        exact hi.fresh d hd
      · cases hb
        rw [hd] at he
        cases he
        exact hi.mine d o hd (by rw [hw]; rfl)
    · cases h
      exact hi.recoverHere .stating
    · cases h
  case stat =>
    split at h
    · split at h
      · cases h
        exact hi.settleHere _
      · next d hd =>
        cases h
        refine hi.recoverHere
          ⟨fun g hg => ?_, fun b g e hb => (by cases hb), fun g hg => (by cases hg)⟩
        cases hg
        exact hi.fresh d hd
    · cases h
  case age =>
    split at h
    · next m g hr =>
      split at h
      · cases h
        exact hi.settleHere _
      · next hage =>
        cases h
        exact hi.recoverHere (hi.stale hr rfl (hc _ hr (by omega)) rfl (by simp))
    · cases h
  case judge esrch =>
    split at h
    · next o g hr =>
      -- the maker of the directory is the owner that the recovery has read
      have hmk : ¬ w.Live o → w.Abandoned g := fun hn d hd hg hl =>
        hn ((hi.sound p _ hr).judged o g d rfl hd hg ▸ hl)
      split at h
      · next hop =>
        split at h
        · cases h
          exact hi.settleHere _
        · next hne =>
          cases h
          exact hi.recoverHere (hi.stale hr rfl (hmk (hc _ hr hop hne)) rfl (by simp))
      · split at h
        · split at h
          · next hdead =>
            cases h
            refine hi.recoverHere (hi.stale hr rfl (hmk fun hl => ?_) rfl (by simp))
            rw [hl.1] at hdead
            cases hdead
          · cases h
        · cases h
          exact hi.settleHere _
    · cases h
  case recheck =>
    split at h
    · next e g hr =>
      split at h
      · cases h
        exact hi.recoverHere (hi.stale hr rfl ((hi.sound p _ hr).condemned g rfl) rfl (by simp))
      · cases h
        exact hi.settleHere _
    · cases h
  case unlink =>
    split at h
    · next g hr =>
      cases h
      exact hi.recover (.map (fun d => .unlinked d w.nowMs) _) (fun _ _ => map_ne_none)
        (hi.stale hr rfl ((hi.sound p _ hr).condemned g rfl) rfl (by simp))
    · cases h
  case rmdir =>
    split at h
    · next g hr =>
      cases h
      refine hi.settle (.rmdir _) (fun b hb _ => ?_) _
      -- a live holder's directory is at the path, so it is the condemned one
      obtain ⟨d, hd, hm⟩ := hi.held b hb
      exact absurd (hm ▸ hb) ((hi.sound p _ hr).condemned g rfl d hd (hc _ hr d hd))
    · cases h
  case fail =>
    split at h
    · cases h
      exact hi.recoverHere .stating
    all_goals first
      | cases h; done
      | cases h; exact hi.settleHere _

end Recovery

/-! ### the runs -/

section Runs

variable {w w' : World} {e : Event}

theorem Inv.crash (hi : Inv w) (p : Nat) : Inv { w with dead := update w.dead p true } := by
  refine hi.fade ⟨rfl, .refl _, fun b hb => ⟨⟨?_, hb.2⟩, fun h => h⟩, fun b hb => hb⟩ hi.sound
  have hd : update w.dead p true b.proc = false := hb.1
  by_cases hbp : b.proc = p
  · rw [hbp, update_self] at hd
    cases hd
  · rwa [update_of_ne hbp] at hd

/-- **The step lemma.** -/
theorem Inv.step (hi : Inv w) (hc : Calm w e) (h : next w e = some w') : Inv w' := by
  cases e with
  | tick ms =>
    cases h
    exact hi.fade ⟨rfl, .refl _, fun b hb => ⟨hb, fun h => h⟩, fun b hb => hb⟩ hi.sound
  | crash p =>
    cases h
    exact hi.crash p
  | op o a =>
    unfold next at h
    simp only at h
    split at h
    · cases h
    · next hd => exact hi.op (Bool.eq_false_iff.2 hd) h
  | recovery p a =>
    unfold next at h
    simp only at h
    split at h
    · cases h
    · exact hi.recovery hc h

theorem inv_reachable (h : (system.guard Calm).Reachable w) : Inv w :=
  h.inv (fun h0 => by
    have h0 : _ = World.init := h0
    exact h0 ▸ Inv.init) (fun hi hs => hi.step hs.1 hs.2)

/-- A call that does not hold the lock leaves a held directory alone. -/
theorem Inv.op_dir (hi : Inv w) {o : Op} {a : OpAct} (ha : w.dead o.proc = false) {d : Dir}
    (hd : w.dir = some d) (hl : w.Live d.maker) (hne : o ≠ d.maker)
    (h : opNext w o a = some w') : w'.dir = w.dir := by
  have hno : (w.phase o).holds = false := by
    by_contra hh
    exact hne (hi.exclusive ⟨ha, by simpa using hh⟩ hl)
  cases a <;> unfold opNext at h <;> simp only at h
  case createLockDir =>
    rw [hd] at h
    split at h
    · cases h
      rfl
    · cases h
  case catchBusy =>
    split at h
    · cases h
      split <;> rfl
    · cases h
      rfl
    · cases h
  all_goals
    split at h
    all_goals first
      | cases h; done
      | cases h; rfl
      | next hp => rw [hp] at hno; cases hno

/-- A recovery that meets the condition leaves a held directory alone. -/
theorem Inv.recovery_dir (hi : Inv w) {p : Nat} {a : RecAct} (hc : Calm w (.recovery p a))
    {d : Dir} (hd : w.dir = some d) (hl : w.Live d.maker) (h : recNext w p a = some w') :
    w'.dir = w.dir := by
  cases a <;> unfold recNext at h <;> simp only at h
  case unlink =>
    split at h
    · next g hr => exact absurd hl ((hi.sound p _ hr).condemned g rfl d hd (hc _ hr d hd))
    · cases h
  case rmdir =>
    split at h
    · next g hr => exact absurd hl ((hi.sound p _ hr).condemned g rfl d hd (hc _ hr d hd))
    · cases h
  case judge esrch =>
    split at h
    · split_ifs at h <;> first | cases h; done | cases h; rfl
    · cases h
  all_goals
    split at h
    all_goals first
      | cases h; done
      | cases h; rfl
      | split at h <;> cases h <;> rfl

theorem Inv.dir_kept (hi : Inv w) (hc : Calm w e) {d : Dir} (hd : w.dir = some d)
    (hl : w.Live d.maker) (he : ∀ a, e ≠ .op d.maker a) (h : next w e = some w') :
    w'.dir = some d := by
  rw [← hd]
  cases e with
  | tick ms =>
    cases h
    rfl
  | crash p =>
    cases h
    rfl
  | op o a =>
    unfold next at h
    simp only at h
    split at h
    · cases h
    · next ha =>
      refine hi.op_dir (Bool.eq_false_iff.2 ha) hd hl ?_ h
      rintro rfl
      exact he a rfl
  | recovery p a =>
    unfold next at h
    simp only at h
    split at h
    · cases h
    · exact hi.recovery_dir hc hd hl h

/-- The lock excludes in `w`: one operation runs at most, and no step of `L` but the holder's own
touches a directory that a live call holds. -/
def Excludes (L : LTS World Event) (w : World) : Prop :=
  (∀ a b, w.Runs a → w.Runs b → a = b) ∧
    ∀ d e w', w.dir = some d → w.Live d.maker → (∀ a, e ≠ .op d.maker a) → L.Step w e w' →
      w'.dir = some d

/-- **Mutual exclusion.** In a run whose recoveries meet the condition, the lock excludes in every
state. -/
theorem lock_excludes (h : (system.guard Calm).Reachable w) : Excludes (system.guard Calm) w := by
  have hi := inv_reachable h
  refine ⟨fun a b ha hb => hi.exclusive ha.live hb.live, ?_⟩
  intro d e w' hd hl he hs
  exact hi.dir_kept hs.1 hd hl he hs.2

end Runs

/-! ### two runs -/

instance (w : World) (o : Op) : Decidable (w.Live o) := inferInstanceAs (Decidable (_ ∧ _))

instance (w : World) (o : Op) : Decidable (w.Runs o) := inferInstanceAs (Decidable (_ ∧ _))

instance (w : World) (g : Nat) : Decidable (w.Abandoned g) :=
  inferInstanceAs (Decidable (∀ d ∈ w.dir, d.gen = g → ¬ w.Live d.maker))

instance (w : World) (g : Nat) : Decidable (w.Unreplaced g) :=
  inferInstanceAs (Decidable (∀ d ∈ w.dir, d.gen = g))

instance (w : World) (p : Nat) (a : RecAct) : DecidablePred (Recovery.Calm w p a) := fun r => by
  unfold Recovery.Calm
  split <;> infer_instance

instance (w : World) (e : Event) : Decidable (Calm w e) := by
  unfold Calm
  split <;> infer_instance

def ops (o : Op) (as : List OpAct) : List Event := as.map (.op o ·)

def recoveries (p : Nat) (as : List RecAct) : List Event := as.map (.recovery p ·)

/-- A process dies with the lock held; another recovers the lock and takes it. -/
def takeover : List Event :=
  ops ⟨0, 0⟩ [.call, .createLockDir, .openOwner, .writeOwner, .enter] ++ [.crash 0] ++
  ops ⟨1, 0⟩ [.call, .createLockDir, .catchBusy] ++
  recoveries 1 [.inspect, .judge true, .recheck, .unlink, .rmdir] ++
  ops ⟨1, 0⟩ [.resume, .createLockDir, .openOwner, .writeOwner, .enter]

def afterTakeover : Option World :=
  takeover.foldlM (fun w e => if Calm w e then next w e else none) World.init

theorem afterTakeover_isSome : afterTakeover.isSome = true := by decide

theorem afterTakeover_reachable :
    (system.guard Calm).Reachable (afterTakeover.get afterTakeover_isSome) :=
  .run (.init rfl) (LTS.run_guard_ofOption _ (Option.some_get afterTakeover_isSome).symm)

theorem lock_excludes_takeover :
    (afterTakeover.get afterTakeover_isSome).Runs ⟨1, 0⟩ ∧
      Excludes (system.guard Calm) (afterTakeover.get afterTakeover_isSome) :=
  ⟨by decide, lock_excludes afterTakeover_reachable⟩

/-- Two calls of one process. The second finds the `owner.json` that the first has just written,
and no registration; it recovers the lock, while the first enters. -/
def orphaned : List Event :=
  ops ⟨0, 0⟩ [.call, .createLockDir, .openOwner, .writeOwner] ++
  ops ⟨0, 1⟩ [.call, .createLockDir, .catchBusy] ++
  recoveries 0 [.inspect, .judge false] ++
  ops ⟨0, 0⟩ [.enter] ++
  recoveries 0 [.recheck, .unlink, .rmdir] ++
  ops ⟨0, 1⟩ [.resume, .createLockDir, .openOwner, .writeOwner, .enter]

theorem orphaned_isSome : (orphaned.foldlM next World.init).isSome = true := by decide

theorem orphaned_reachable : system.Reachable ((orphaned.foldlM next World.init).get orphaned_isSome) :=
  .run (.init rfl) (LTS.run_ofOption _ (Option.some_get orphaned_isSome).symm)

theorem lock_not_exclusive : ¬ ∀ w, system.Reachable w → Excludes system w := by
  intro h
  have he := (h _ orphaned_reachable).1 ⟨0, 0⟩ ⟨0, 1⟩ (by decide) (by decide)
  exact absurd he (by decide)

end Ceo.Workspace.Lock
