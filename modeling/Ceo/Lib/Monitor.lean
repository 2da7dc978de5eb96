import Ceo.Lib.Program

/-!
# Monitors

`Reaches p t q`: the program `p`, its calls answered as the trace `t` says, has
become `q`. A monitor reads the trace; `Obeys M ok post p s` says that `p`,
started with the monitor in `s`, makes only calls that are `ok` where the
monitor is, and ends as `post` says. `Obeys` goes through a program once, and
`Obeys.reaches` reads it back at every point of every trace.
-/

namespace Ceo.Lib

variable {E : Type} {R : E → Type} {σ α β : Type}

/-- A call with its answer. -/
abbrev Exchange (E : Type) (R : E → Type) := (e : E) × R e

inductive Program.Reaches :
    Program E R α → List (Exchange E R) → Program E R α → Prop where
  | refl (p : Program E R α) : Reaches p [] p
  | call {e : E} {k : R e → Program E R α} {r : R e} {t : List (Exchange E R)} {q : Program E R α}
    (rest : Reaches (k r) t q) : Reaches (.call e k) (⟨e, r⟩ :: t) q

abbrev Monitor (E : Type) (R : E → Type) (σ : Type) := σ → Exchange E R → σ

/-- The calls are `ok` where the monitor is, and so is the result. -/
def Program.Obeys (M : Monitor E R σ) (ok : σ → E → Prop) (post : σ → α → Prop) :
    Program E R α → σ → Prop
  | .done a, s => post s a
  | .call e k, s => ok s e ∧ ∀ r, (k r).Obeys M ok post (M s ⟨e, r⟩)

namespace Program

variable {M : Monitor E R σ} {ok : σ → E → Prop} {post : σ → α → Prop} {s : σ}
variable {p q : Program E R α} {t : List (Exchange E R)}

theorem Obeys.bind {post' : σ → β → Prop} {p : Program E R α} {f : α → Program E R β}
    (hp : p.Obeys M ok post s) (hf : ∀ a s', post s' a → (f a).Obeys M ok post' s') :
    (p >>= f).Obeys M ok post' s := by
  induction p generalizing s with
  | done a => exact hf a s hp
  | call e k ih => exact ⟨hp.1, fun r => ih r (hp.2 r)⟩

/-- What is left of the program obeys, with the monitor where the trace has taken it. -/
theorem Obeys.reaches (hp : p.Obeys M ok post s) (h : p.Reaches t q) :
    q.Obeys M ok post (t.foldl M s) := by
  induction h generalizing s with
  | refl => exact hp
  | call _ ih => exact ih (hp.2 _)

/-- A call of a trace, and where the program was before it. -/
theorem Reaches.split {before after : List (Exchange E R)} {x : Exchange E R}
    (h : p.Reaches (before ++ x :: after) q) : ∃ k, p.Reaches before (.call x.1 k) := by
  induction before generalizing p with
  | nil =>
    cases h with
    | call rest => exact ⟨_, .refl _⟩
  | cons y ys ih =>
    cases h with
    | call rest =>
      obtain ⟨k, hk⟩ := ih rest
      exact ⟨k, .call hk⟩

theorem Reaches.of_eq (h : q = p) : p.Reaches [] q := h ▸ .refl _

/-- A point of a sequence is in its first part, or after it. -/
theorem reaches_bind {p : Program E R α} {f : α → Program E R β} {q : Program E R β}
    (h : (p >>= f).Reaches t q) :
    (∃ p', p.Reaches t p' ∧ q = (p' >>= f)) ∨
      ∃ t₁ t₂ a, t = t₁ ++ t₂ ∧ p.Reaches t₁ (.done a) ∧ (f a).Reaches t₂ q := by
  induction p generalizing t with
  | done a => exact .inr ⟨[], t, a, rfl, .refl _, h⟩
  | call e k ih =>
    cases h with
    | refl => exact .inl ⟨.call e k, .refl _, rfl⟩
    | call rest =>
      rcases ih _ rest with ⟨p', hp', rfl⟩ | ⟨t₁, t₂, a, rfl, ha, hf⟩
      · exact .inl ⟨p', .call hp', rfl⟩
      · exact .inr ⟨_ :: t₁, t₂, a, rfl, .call ha, hf⟩

theorem Reaches.trans {r : Program E R α} {u : List (Exchange E R)} (h : p.Reaches t q)
    (h' : q.Reaches u r) : p.Reaches (t ++ u) r := by
  induction h with
  | refl => exact h'
  | call _ ih => exact .call (ih h')

theorem Reaches.bind {f : α → Program E R β} (h : p.Reaches t q) :
    (p >>= f).Reaches t (q >>= f) := by
  induction h with
  | refl => exact .refl _
  | call _ ih => exact .call ih

/-- A trace leads to one point. -/
theorem Reaches.unique {q' : Program E R α} (h : p.Reaches t q) (h' : p.Reaches t q') : q = q' := by
  induction h with
  | refl =>
    cases h'
    rfl
  | call _ ih =>
    cases h' with
    | call rest => exact ih rest

end Program

end Ceo.Lib
