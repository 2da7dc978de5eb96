import Mathlib.Logic.Relation

/-!
# Labelled transition systems

`L.Run s l t` says `L` goes from `s` to `t` along the labels `l`;
`L.Reachable t` says some run from an initial state ends in `t`.
`L.guard G` keeps the steps whose source state and label satisfy `G`, so its
runs are the runs of `L` whose steps all meet `G`. Safety is proved by a step
lemma and one of the rules here: `Reachable.inv` for what holds of every
state, `Run.rel` for what relates the two ends of a run.
-/

namespace Ceo.Lib

universe u v

structure LTS (σ : Type u) (ι : Type v) where
  Init : σ → Prop
  Step : σ → ι → σ → Prop

namespace LTS

variable {σ : Type u} {ι : Type v}

inductive Run (L : LTS σ ι) : σ → List ι → σ → Prop where
  | nil (s : σ) : Run L s [] s
  | cons {s t r : σ} {a : ι} {l : List ι} : L.Step s a t → Run L t l r → Run L s (a :: l) r

def Reachable (L : LTS σ ι) (t : σ) : Prop := ∃ s l, L.Init s ∧ L.Run s l t

/-- The steps of `L` from states and with labels that satisfy `G`. -/
def guard (L : LTS σ ι) (G : σ → ι → Prop) : LTS σ ι where
  Init := L.Init
  Step s a t := G s a ∧ L.Step s a t

/-- The system of a step function. -/
def ofFun (Init : σ → Prop) (f : σ → ι → σ) : LTS σ ι where
  Init := Init
  Step s a t := t = f s a

variable {L : LTS σ ι}

theorem Run.single {s t : σ} {a : ι} (h : L.Step s a t) : L.Run s [a] t := .cons h (.nil t)

theorem Run.trans {s t r : σ} {l m : List ι} (h1 : L.Run s l t) (h2 : L.Run t m r) :
    L.Run s (l ++ m) r := by
  induction h1 with
  | nil => exact h2
  | cons hs _ ih => exact .cons hs (ih h2)

theorem Reachable.init {s : σ} (h : L.Init s) : L.Reachable s := ⟨s, [], h, .nil s⟩

theorem Reachable.run {s t : σ} {l : List ι} (hs : L.Reachable s) (hr : L.Run s l t) :
    L.Reachable t := by
  obtain ⟨s₀, m, h0, hm⟩ := hs
  exact ⟨s₀, m ++ l, h0, hm.trans hr⟩

theorem Reachable.step {s t : σ} {a : ι} (hs : L.Reachable s) (h : L.Step s a t) :
    L.Reachable t :=
  hs.run (.single h)

/-- A property every step keeps is kept along a run. -/
theorem Run.inv {I : σ → Prop} (step : ∀ {s a t}, I s → L.Step s a t → I t)
    {s t : σ} {l : List ι} (hr : L.Run s l t) (hs : I s) : I t := by
  induction hr with
  | nil => exact hs
  | cons h _ ih => exact ih (step hs h)

/-- **The invariant rule.** -/
theorem Reachable.inv {I : σ → Prop} (init : ∀ {s}, L.Init s → I s)
    (step : ∀ {s a t}, I s → L.Step s a t → I t) {t : σ} (ht : L.Reachable t) : I t := by
  obtain ⟨s, l, h0, hr⟩ := ht
  exact hr.inv step (init h0)

/-- A reflexive and transitive relation that every step from an invariant
state satisfies holds between the two ends of a run. -/
theorem Run.rel {I : σ → Prop} {R : σ → σ → Prop} (refl : ∀ s, R s s)
    (trans : ∀ {s t r}, R s t → R t r → R s r)
    (keep : ∀ {s a t}, I s → L.Step s a t → I t)
    (step : ∀ {s a t}, I s → L.Step s a t → R s t)
    {s t : σ} {l : List ι} (hr : L.Run s l t) (hs : I s) : R s t := by
  induction hr with
  | nil => exact refl _
  | cons h _ ih => exact trans (step hs h) (ih (keep hs h))

theorem Run.of_guard {G : σ → ι → Prop} {s t : σ} {l : List ι} (hr : (L.guard G).Run s l t) :
    L.Run s l t := by
  induction hr with
  | nil => exact .nil _
  | cons h _ ih => exact .cons h.2 ih

theorem Reachable.of_guard {G : σ → ι → Prop} {t : σ} (ht : (L.guard G).Reachable t) :
    L.Reachable t := by
  obtain ⟨s, l, h0, hr⟩ := ht
  exact ⟨s, l, h0, hr.of_guard⟩

/-- What holds at the end of a run and not at its start came with some step, and has held since. -/
theorem Run.since {P : σ → Prop} {s t : σ} {l : List ι} (hr : L.Run s l t) (hs : ¬P s) (ht : P t) :
    ∃ s₁ a s₂ l₁ l₂, L.Run s l₁ s₁ ∧ ¬P s₁ ∧ L.Step s₁ a s₂ ∧ P s₂ ∧
      (L.guard fun s _ => P s).Run s₂ l₂ t := by
  suffices (∃ l, P s ∧ (L.guard fun s _ => P s).Run s l t) ∨
      ∃ s₁ a s₂ l₁ l₂, L.Run s l₁ s₁ ∧ ¬P s₁ ∧ L.Step s₁ a s₂ ∧ P s₂ ∧
        (L.guard fun s _ => P s).Run s₂ l₂ t by
    refine this.resolve_left ?_
    rintro ⟨-, h, -⟩
    exact hs h
  clear hs
  induction hr with
  | nil s => exact .inl ⟨[], ht, .nil s⟩
  | @cons s u t a l h _ ih =>
    rcases ih ht with ⟨m, hu, hm⟩ | ⟨s₁, b, s₂, l₁, l₂, h₁, hrest⟩
    · by_cases hs : P s
      · exact .inl ⟨a :: m, hs, .cons ⟨hs, h⟩ hm⟩
      · exact .inr ⟨s, a, u, [], m, .nil s, hs, h, hu, hm⟩
    · exact .inr ⟨s₁, b, s₂, a :: l₁, l₂, .cons h h₁, hrest⟩

/-- The system of a step function that may refuse a label. -/
def ofOption (Init : σ → Prop) (f : σ → ι → Option σ) : LTS σ ι where
  Init := Init
  Step s a t := f s a = some t

/-- The run of a step function along given labels. -/
theorem run_ofFun (Init : σ → Prop) (f : σ → ι → σ) (s : σ) (l : List ι) :
    (ofFun Init f).Run s l (l.foldl f s) := by
  induction l generalizing s with
  | nil => exact .nil s
  | cons a l ih => exact .cons rfl (ih (f s a))

/-- The run along labels that a step function does not refuse. -/
theorem run_ofOption (Init : σ → Prop) {f : σ → ι → Option σ} {s t : σ} {l : List ι}
    (h : l.foldlM f s = some t) : (ofOption Init f).Run s l t := by
  induction l generalizing s with
  | nil =>
    cases h
    exact .nil _
  | cons a l ih =>
    obtain ⟨r, hr, hl⟩ := Option.bind_eq_some_iff.1 h
    exact .cons hr (ih hl)

/-- A run along given labels, and what is checked of its end. -/
theorem exists_run_ofOption (Init : σ → Prop) {f : σ → ι → Option σ} {s : σ} {l : List ι}
    {check : σ → Bool} (h : (l.foldlM f s).any check = true) :
    ∃ t, (ofOption Init f).Run s l t ∧ check t = true := by
  obtain ⟨t, ht, hcheck⟩ := (Option.any_eq_true _ _).1 h
  exact ⟨t, run_ofOption Init ht, hcheck⟩

/-- The same where each step is checked against the condition first. -/
theorem run_guard_ofOption (Init : σ → Prop) {f : σ → ι → Option σ} {G : σ → ι → Prop}
    [∀ s a, Decidable (G s a)] {s t : σ} {l : List ι}
    (h : l.foldlM (fun s a => if G s a then f s a else none) s = some t) :
    ((ofOption Init f).guard G).Run s l t := by
  induction l generalizing s with
  | nil =>
    cases h
    exact .nil _
  | cons a l ih =>
    obtain ⟨r, hr, hl⟩ := Option.bind_eq_some_iff.1 h
    simp only at hr
    by_cases hg : G s a
    · rw [if_pos hg] at hr
      exact .cons ⟨hg, hr⟩ (ih hl)
    · rw [if_neg hg] at hr
      cases hr

end LTS

end Ceo.Lib
