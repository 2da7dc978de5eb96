import Ceo.Lib.Program

/-!
# Servers

A `Server` answers any number of requests at once, each with a program of its
own over one store; their calls interleave freely. What the other requests do
between two calls of one program is covered by the surroundings: a proof names
a policy that the calls of every program fit in (`Served.fits`), shows each
program safe in it, and `Server.reachable_safe` gives the invariant in every
reachable state.
-/

namespace Ceo.Lib

structure Server (σ E : Type) (R : E → Type) (ρ ε κ α : Type) extends Surroundings σ E R ρ ε where
  Init : σ → Prop
  handle : κ → Program E R α

/-- The contract with one more invariant. -/
def Contract.also {σ E ρ ε : Type} (C : Contract σ E ρ ε) (A : σ → Prop) : Contract σ E ρ ε :=
  { C with inv := fun s => C.inv s ∧ A s }

/-- A program that is safe stays so where more is known of the store. -/
theorem Safe.also {σ E ρ ε α : Type} {R : E → Type} {S : Surroundings σ E R ρ ε}
    {C : Contract σ E ρ ε} {Q : α → σ → Prop} {A : σ → Prop} {p : Program E R α} {s : σ}
    (h : Safe S C Q p s) : Safe S (C.also A) Q p s := by
  induction p generalizing s with
  | done a => exact h
  | call e k ih =>
    intro s' hs' hI
    obtain ⟨hneed, hnext⟩ := h s' hs' hI.1
    exact ⟨hneed, fun x r t hx hr ht => ih r (hnext x r t hx hr ht.1)⟩

theorem Surroundings.Stable.and {σ E ρ ε : Type} {R : E → Type} {S : Surroundings σ E R ρ ε}
    {P : Policy σ E ρ ε} {A B : σ → Prop} (hA : S.Stable P A) (hB : S.Stable P B) :
    S.Stable P fun s => A s ∧ B s :=
  fun s x t h hp hx => ⟨hA s x t h.1 hp hx, hB s x t h.2 hp hx⟩

namespace Server

variable {σ E ρ ε κ α : Type} {R : E → Type}

structure State (σ E : Type) (R : E → Type) (α : Type) where
  store : σ
  /-- The requests accepted so far, each as far as it has come. -/
  sessions : List (Program E R α)

inductive Label (ρ ε κ : Type) where
  | accept (q : κ)
  | reply (i : Nat) (x : ρ)
  | surround (x : ε)

def allows (P : Policy σ E ρ ε) (s : State σ E R α) : Label ρ ε κ → Prop
  | .accept _ => True
  | .reply i x => Machine.atCall (fun e => P.reply s.store e x) s.sessions[i]?
  | .surround x => P.surround s.store x

instance (P : Policy σ E ρ ε) [∀ s e x, Decidable (P.reply s e x)]
    [∀ s x, Decidable (P.surround s x)] (s : State σ E R α) :
    (a : Label ρ ε κ) → Decidable (allows P s a)
  | .accept _ => .isTrue trivial
  | .reply i x =>
    inferInstanceAs (Decidable (Machine.atCall (fun e => P.reply s.store e x) s.sessions[i]?))
  | .surround x => inferInstanceAs (Decidable (P.surround s.store x))

variable (V : Server σ E R ρ ε κ α)

def next (s : State σ E R α) : Label ρ ε κ → Option (State σ E R α)
  | .accept q => some { s with sessions := s.sessions ++ [V.handle q] }
  | .reply i x =>
    match s.sessions[i]? with
    | some (.call e k) =>
      (V.serve s.store e x).map fun a => ⟨a.2, s.sessions.set i (k a.1)⟩
    | _ => none
  | .surround x => (V.surround s.store x).map fun t => { s with store := t }

def system : LTS (State σ E R α) (Label ρ ε κ) :=
  .ofOption (fun s => V.Init s.store ∧ s.sessions = []) V.next

/-- The runs that keep to a policy. -/
def under (P : Policy σ E ρ ε) : LTS (State σ E R α) (Label ρ ε κ) :=
  V.system.guard (allows P)

variable {V} {P : Policy σ E ρ ε} {C : Contract σ E ρ ε} {Q : α → σ → Prop}

/-- What a proof about a server owes: the runs' policy is within the contract's, a program's call
that has what it needs is one the contract's surroundings could make, and these keep the invariant. -/
structure Served (V : Server σ E R ρ ε κ α) (P : Policy σ E ρ ε) (C : Contract σ E ρ ε) : Prop where
  init : ∀ s, V.Init s → C.inv s
  replies : ∀ s e x, P.reply s e x → C.policy.reply s e x
  surrounds : ∀ s x, P.surround s x → C.policy.surround s x
  fits : ∀ s e x r t, C.inv s → C.needs s e → C.policy.reply s e x →
    V.serve s e x = some (r, t) → V.Rely C.policy s t
  kept : V.Stable C.policy C.inv

/-- The calls keep one more invariant, if the surroundings do. -/
theorem Served.also (served : V.Served P C) {A : σ → Prop} (init : ∀ s, V.Init s → A s)
    (kept : V.Stable C.policy (C.also A).inv) : V.Served P (C.also A) where
  init s hs := ⟨served.init s hs, init s hs⟩
  replies := served.replies
  surrounds := served.surrounds
  fits s e x r t hI := served.fits s e x r t hI.1
  kept := kept

/-- **The rule for servers.** -/
theorem reachable_safe (served : V.Served P C) (hQ : ∀ a, V.Stable C.policy (Q a))
    (accept : ∀ q s, C.inv s → Safe V.toSurroundings C Q (V.handle q) s)
    {s : State σ E R α} (hs : (V.under P).Reachable s) :
    C.inv s.store ∧ ∀ p ∈ s.sessions, Safe V.toSurroundings C Q p s.store := by
  refine hs.inv (I := fun s => C.inv s.store ∧
    ∀ p ∈ s.sessions, Safe V.toSurroundings C Q p s.store) ?_ ?_
  · rintro s ⟨hi, hp⟩
    exact ⟨served.init _ hi, fun p h => by simp [hp] at h⟩
  · rintro ⟨s, sessions⟩ a t ⟨hI, hsafe⟩ ⟨hallow, hstep⟩
    cases a with
    | accept q =>
      cases hstep
      refine ⟨hI, fun p hp => ?_⟩
      rcases List.mem_append.1 hp with hp | hp
      · exact hsafe p hp
      · rw [List.mem_singleton.1 hp]
        exact accept q s hI
    | reply i x =>
      simp only [system, LTS.ofOption, next] at hstep
      simp only [allows] at hallow
      split at hstep
      next e k hi =>
        rw [hi] at hallow
        obtain ⟨⟨r, u⟩, hserve, rfl⟩ := Option.map_eq_some_iff.1 hstep
        have hx := served.replies s e x hallow
        obtain ⟨hD, hk⟩ := hsafe _ (List.mem_of_getElem? hi) s .refl hI
        have hrely := served.fits s e x r u hI hD hx hserve
        have hu : C.inv u := served.kept.rely hrely hI
        refine ⟨hu, fun p hp => ?_⟩
        rcases List.mem_or_eq_of_mem_set hp with hp | rfl
        · exact (Safe.stable hQ p).rely hrely (hsafe p hp)
        · exact hk x r u hx hserve hu
      next => cases hstep
    | surround x =>
      obtain ⟨u, hu, rfl⟩ := Option.map_eq_some_iff.1 hstep
      have hx := served.surrounds s x hallow
      exact ⟨served.kept s x u hI hx hu,
        fun p hp => Safe.stable hQ p s x u (hsafe p hp) hx hu⟩

/-- A step leaves the store alone, or it is a call that has what it needs, or an outside step. -/
theorem step_needs (served : V.Served P C) (hQ : ∀ a, V.Stable C.policy (Q a))
    (accept : ∀ q s, C.inv s → Safe V.toSurroundings C Q (V.handle q) s)
    {s t : State σ E R α} (hs : (V.under P).Reachable s) {a : Label ρ ε κ}
    (h : (V.under P).Step s a t) :
    t.store = s.store ∨
      (∃ e x r, C.needs s.store e ∧ P.reply s.store e x ∧ V.serve s.store e x = some (r, t.store)) ∨
      ∃ x, P.surround s.store x ∧ V.surround s.store x = some t.store := by
  obtain ⟨hI, hsafe⟩ := reachable_safe served hQ accept hs
  obtain ⟨hallow, hstep⟩ := h
  cases a with
  | accept q =>
    cases hstep
    exact .inl rfl
  | reply i x =>
    simp only [system, LTS.ofOption, next] at hstep
    simp only [allows] at hallow
    split at hstep
    next e k hi =>
      rw [hi] at hallow
      obtain ⟨⟨r, u⟩, hserve, rfl⟩ := Option.map_eq_some_iff.1 hstep
      have hneed := (hsafe _ (List.mem_of_getElem? hi) s.store .refl hI).1
      exact .inr (.inl ⟨e, x, r, hneed, hallow, hserve⟩)
    next => cases hstep
  | surround x =>
    obtain ⟨u, hu, rfl⟩ := Option.map_eq_some_iff.1 hstep
    exact .inr (.inr ⟨x, hallow, hu⟩)

/-! ### runs along given labels -/

variable (V)

def runUnder (P : Policy σ E ρ ε) [∀ s e x, Decidable (P.reply s e x)]
    [∀ s x, Decidable (P.surround s x)] (s : σ) (steps : List (Label ρ ε κ)) :
    Option (State σ E R α) :=
  steps.foldlM (fun s a => if allows P s a then V.next s a else none) ⟨s, []⟩

theorem reachable_runUnder [∀ s e x, Decidable (P.reply s e x)] [∀ s x, Decidable (P.surround s x)]
    {s : σ} (hs : V.Init s) (steps : List (Label ρ ε κ)) (check : State σ E R α → Bool)
    (h : (V.runUnder P s steps).any check = true) :
    ∃ t, (V.under P).Reachable t ∧ check t = true := by
  cases hr : V.runUnder P s steps with
  | none => simp [hr] at h
  | some t =>
    rw [hr] at h
    exact ⟨t, ⟨⟨s, []⟩, steps, ⟨hs, rfl⟩, LTS.run_guard_ofOption _ hr⟩, h⟩

end Server

end Ceo.Lib
