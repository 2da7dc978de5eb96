import Ceo.Lib.Program

/-!
# Runs of one program

`Ends S P p s a t`: from the store `s` the program `p` comes to the result `a`
and leaves the store `t`, with what the surroundings do between its calls.
`Visits S P p s t`: it is stopped on the way, or at the end, and leaves `t`. A
`Safe` program keeps the invariant of its contract on both.
-/

namespace Ceo.Lib

variable {σ E ρ ε α β φ : Type} {R : E → Type}

inductive Ends (S : Surroundings σ E R ρ ε) (P : Policy σ E ρ ε) :
    Program E R α → σ → α → σ → Prop where
  | done (a : α) (s : σ) : Ends S P (.done a) s a s
  | call {e : E} {k : R e → Program E R α} {s s' t u : σ} {x : ρ} {r : R e} {a : α}
    (rely : S.Rely P s s') (allowed : P.reply s' e x) (served : S.serve s' e x = some (r, t))
    (rest : Ends S P (k r) t a u) : Ends S P (.call e k) s a u

inductive Visits (S : Surroundings σ E R ρ ε) (P : Policy σ E ρ ε) :
    Program E R α → σ → σ → Prop where
  | stop {p : Program E R α} {s s' : σ} (rely : S.Rely P s s') : Visits S P p s (S.stop s')
  | lose {e : E} {k : R e → Program E R α} {s s' : σ} (rely : S.Rely P s s') :
    Visits S P (.call e k) s (S.stop (S.lose s' e))
  | call {e : E} {k : R e → Program E R α} {s s' t u : σ} {x : ρ} {r : R e}
    (rely : S.Rely P s s') (allowed : P.reply s' e x) (served : S.serve s' e x = some (r, t))
    (rest : Visits S P (k r) t u) : Visits S P (.call e k) s u

section ends

variable {S : Surroundings σ E R ρ ε} {P : Policy σ E ρ ε}

theorem Ends.bind {p : Program E R α} {f : α → Program E R β} {s t u : σ} {a : α} {b : β}
    (hp : Ends S P p s a t) (hf : Ends S P (f a) t b u) : Ends S P (p >>= f) s b u := by
  induction hp with
  | done => exact hf
  | call rely allowed served _ ih => exact .call rely allowed served (ih hf)

theorem ends_bind {p : Program E R α} {f : α → Program E R β} {s u : σ} {b : β} :
    Ends S P (p >>= f) s b u ↔ ∃ a t, Ends S P p s a t ∧ Ends S P (f a) t b u := by
  constructor
  · intro h
    induction p generalizing s with
    | done a => exact ⟨a, s, .done a s, h⟩
    | call e k ih =>
      cases h with
      | call rely allowed served rest =>
        obtain ⟨a, t, ha, hf⟩ := ih _ rest
        exact ⟨a, t, .call rely allowed served ha, hf⟩
  · rintro ⟨a, t, hp, hf⟩
    exact hp.bind hf

theorem ends_done {a b : α} {s t : σ} : Ends S P (.done a) s b t ↔ b = a ∧ t = s := by
  constructor
  · intro h
    cases h
    exact ⟨rfl, rfl⟩
  · rintro ⟨rfl, rfl⟩
    exact .done _ _

/-- A sequence in which the first part may throw. -/
theorem ends_except {x : ExceptT φ (Program E R) α} {f : α → ExceptT φ (Program E R) β} {s u : σ}
    {res : Except φ β} :
    Ends S P (x >>= f).run s res u ↔
      (∃ a t, Ends S P x.run s (.ok a) t ∧ Ends S P (f a).run t res u) ∨
      ∃ e, Ends S P x.run s (.error e) u ∧ res = .error e := by
  rw [ExceptT.run_bind]
  rw [ends_bind]
  constructor
  · rintro ⟨_ | a, t, hx, hf⟩
    · obtain ⟨rfl, rfl⟩ := ends_done.1 hf
      exact .inr ⟨_, hx, rfl⟩
    · exact .inl ⟨a, t, hx, hf⟩
  · rintro (⟨a, t, hx, hf⟩ | ⟨e, hx, rfl⟩)
    · exact ⟨.ok a, t, hx, hf⟩
    · exact ⟨.error e, u, hx, .done _ _⟩

end ends

section safe

variable {S : Surroundings σ E R ρ ε} {C : Contract σ E ρ ε} {Q : α → σ → Prop}

/-- What keeps the invariant: outside steps, served calls that have what they need, and stops. -/
structure Surroundings.Keeps (S : Surroundings σ E R ρ ε) (C : Contract σ E ρ ε) : Prop where
  surround : S.Stable C.policy C.inv
  reply : ∀ s e x r t, C.inv s → C.needs s e → C.policy.reply s e x →
    S.serve s e x = some (r, t) → C.inv t
  lose : ∀ s e, C.inv s → C.needs s e → C.inv (S.stop (S.lose s e))
  stop : ∀ s, C.inv s → C.inv (S.stop s)

theorem Safe.ends (keeps : S.Keeps C) {p : Program E R α} {s t : σ} {a : α}
    (hp : Safe S C Q p s) (hI : C.inv s) (h : Ends S C.policy p s a t) : C.inv t ∧ Q a t := by
  induction h with
  | done a s => exact ⟨hI, hp⟩
  | call rely allowed served _ ih =>
    have hs' := keeps.surround.rely rely hI
    obtain ⟨needs, hk⟩ := hp _ rely hs'
    have ht := keeps.reply _ _ _ _ _ hs' needs allowed served
    exact ih (hk _ _ _ allowed served ht) ht

theorem Safe.visits (keeps : S.Keeps C) {p : Program E R α} {s t : σ}
    (hp : Safe S C Q p s) (hI : C.inv s) (h : Visits S C.policy p s t) : C.inv t := by
  induction h with
  | stop rely => exact keeps.stop _ (keeps.surround.rely rely hI)
  | lose rely =>
    have hs' := keeps.surround.rely rely hI
    exact keeps.lose _ _ hs' (hp _ rely hs').1
  | call rely allowed served _ ih =>
    have hs' := keeps.surround.rely rely hI
    obtain ⟨needs, hk⟩ := hp _ rely hs'
    have ht := keeps.reply _ _ _ _ _ hs' needs allowed served
    exact ih (hk _ _ _ allowed served ht) ht

end safe

/-! ### programs by their calls and results -/

/-- The calls satisfy `ok` and the result satisfies `post`, where the answers satisfy `ans`. -/
def Program.Within (ok : E → Prop) (ans : (e : E) → R e → Prop) (post : α → Prop) :
    Program E R α → Prop
  | .done a => post a
  | .call e k => ok e ∧ ∀ r, ans e r → (k r).Within ok ans post

section within

variable {ok : E → Prop} {ans : (e : E) → R e → Prop} {post : α → Prop}

theorem Program.Within.bind {post' : β → Prop} {p : Program E R α} {f : α → Program E R β}
    (hp : p.Within ok ans post) (hf : ∀ a, post a → (f a).Within ok ans post') :
    (p >>= f).Within ok ans post' := by
  induction p with
  | done a => exact hf a hp
  | call e k ih => exact ⟨hp.1, fun r hr => ih r (hp.2 r hr)⟩

theorem Program.Within.mono {ok' : E → Prop} {post' : α → Prop} {p : Program E R α}
    (hp : p.Within ok ans post) (hok : ∀ e, ok e → ok' e) (hpost : ∀ a, post a → post' a) :
    p.Within ok' ans post' := by
  induction p with
  | done a => exact hpost a hp
  | call e k ih => exact ⟨hok e hp.1, fun r hr => ih r (hp.2 r hr)⟩

variable {S : Surroundings σ E R ρ ε}

theorem Program.Within.ends {P : Policy σ E ρ ε} {p : Program E R α} {s t : σ} {a : α}
    (hp : p.Within ok ans post) (hans : ∀ s e x r t, S.serve s e x = some (r, t) → ans e r)
    (h : Ends S P p s a t) : post a := by
  induction h with
  | done => exact hp
  | call _ _ served _ ih => exact ih (hp.2 _ (hans _ _ _ _ _ served))

theorem Safe.of_within {C : Contract σ E ρ ε} {p : Program E R α} (hp : p.Within ok ans post)
    (hans : ∀ s e x r t, S.serve s e x = some (r, t) → ans e r)
    (hok : ∀ e, ok e → ∀ s, C.needs s e) (s : σ) : Safe S C (fun a _ => post a) p s := by
  induction p generalizing s with
  | done a => exact hp
  | call e k ih =>
    exact fun s' _ _ =>
      ⟨hok e hp.1 s', fun _ r t _ hx _ => ih r (hp.2 r (hans _ _ _ _ _ hx)) t⟩

end within

/-- The program can come to the call, where the calls before it are answered as `ok` allows. -/
inductive Program.Asks (ok : (e : E) → R e → Prop) : Program E R α → E → Prop where
  | here {e : E} {k : R e → Program E R α} : Program.Asks ok (.call e k) e
  | later {e e' : E} {k : R e → Program E R α} {r : R e} (he : ok e r)
    (h : Program.Asks ok (k r) e') : Program.Asks ok (.call e k) e'

/-! ### runs along given answers -/

/-- The run in which each call is answered with the next choice, after the given outside steps. -/
def Program.runWith (S : Surroundings σ E R ρ ε) :
    Program E R α → σ → List (List ε × ρ) → Option (α × σ)
  | .done a, s, [] => some (a, s)
  | .call e k, s, (steps, x) :: rest =>
    match steps.foldlM S.surround s with
    | none => none
    | some s' =>
      match S.serve s' e x with
      | none => none
      | some (r, t) => (k r).runWith S t rest
  | .done _, _, _ :: _ | .call _ _, _, [] => none

theorem rely_foldlM {S : Surroundings σ E R ρ ε} {s s' : σ} {steps : List ε}
    (h : steps.foldlM S.surround s = some s') : S.Rely .any s s' := by
  induction steps generalizing s with
  | nil =>
    cases h
    exact .refl
  | cons x steps ih =>
    obtain ⟨t, ht, h⟩ := Option.bind_eq_some_iff.1 h
    exact .head ⟨x, trivial, ht⟩ (ih h)

theorem Program.ends_of_runWith {S : Surroundings σ E R ρ ε} {p : Program E R α} {s : σ}
    {choices : List (List ε × ρ)} {a : α} {t : σ} (h : p.runWith S s choices = some (a, t)) :
    Ends S .any p s a t := by
  induction p generalizing s choices with
  | done b =>
    cases choices with
    | nil =>
      cases h
      exact .done _ _
    | cons c rest => cases h
  | call e k ih =>
    cases choices with
    | nil => cases h
    | cons c rest =>
      obtain ⟨steps, x⟩ := c
      rw [runWith] at h
      cases hs : steps.foldlM S.surround s with
      | none =>
        rw [hs] at h
        cases h
      | some s' =>
      rw [hs] at h
      dsimp only at h
      cases hx : S.serve s' e x with
      | none =>
        rw [hx] at h
        cases h
      | some rt =>
        rw [hx] at h
        exact .call (rely_foldlM hs) trivial hx (ih _ h)

theorem Program.exists_ends_of_runWith {S : Surroundings σ E R ρ ε} {p : Program E R α} {s : σ}
    {choices : List (List ε × ρ)} {check : α → Bool}
    (h : (p.runWith S s choices).any (fun r => check r.1) = true) :
    ∃ a t, Ends S .any p s a t ∧ check a = true := by
  obtain ⟨⟨a, t⟩, hrun, hcheck⟩ := (Option.any_eq_true _ _).1 h
  exact ⟨a, t, ends_of_runWith hrun, hcheck⟩

end Ceo.Lib
