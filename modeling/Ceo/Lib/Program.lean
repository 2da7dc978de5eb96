import Ceo.Lib.Transition

/-!
# Programs that call out, and processes that crash

A `Program` is what a process does between its calls: a call `e` is answered
by an `R e`, and the program goes on from the answer. `Surroundings` say how a
call is answered over a store and what else can happen to the store; a
`Machine` runs one program at a time in them, can stop at any call or inside
one, and is booted again from the store alone. A `Policy` says which answers,
crashes and outside steps a run may have.

`Safe` is the assertion that carries a proof through a program: what each call
needs of the store, whatever the answers before it were and whatever the
surroundings did since. `reachable_safe` lifts it to every reachable state.
-/

namespace Ceo.Lib

inductive Program (E : Type) (R : E → Type) (α : Type) where
  | done (a : α)
  | call (e : E) (k : R e → Program E R α)

namespace Program

variable {E : Type} {R : E → Type} {α β γ : Type}

def bind : Program E R α → (α → Program E R β) → Program E R β
  | .done a, f => f a
  | .call e k, f => .call e fun r => (k r).bind f

instance : Monad (Program E R) where
  pure := .done
  bind := bind

/-- One call, for its answer. -/
def perform (e : E) : Program E R (R e) := .call e .done

@[simp] theorem pure_eq (a : α) : (pure a : Program E R α) = .done a := rfl

@[simp] theorem done_bind (a : α) (f : α → Program E R β) : (Program.done a >>= f) = f a := rfl

@[simp] theorem call_bind (e : E) (k : R e → Program E R α) (f : α → Program E R β) :
    (Program.call e k >>= f) = .call e fun r => k r >>= f := rfl

@[simp] theorem perform_bind (e : E) (f : R e → Program E R β) :
    (perform e >>= f) = .call e f := rfl

/-- The program makes only calls that satisfy `ok`. -/
def Uses (ok : E → Prop) : Program E R α → Prop
  | .done _ => True
  | .call e k => ok e ∧ ∀ r, (k r).Uses ok

theorem Uses.bind {ok : E → Prop} {p : Program E R α} {f : α → Program E R β} (hp : p.Uses ok)
    (hf : ∀ a, (f a).Uses ok) : (p >>= f).Uses ok := by
  induction p with
  | done a => exact hf a
  | call e k ih => exact ⟨hp.1, fun r => ih r (hp.2 r)⟩

theorem bind_assoc (p : Program E R α) (f : α → Program E R β) (g : β → Program E R γ) :
    (p >>= f) >>= g = p >>= fun a => f a >>= g := by
  induction p with
  | done a => rfl
  | call e k ih =>
    show Program.call e _ = Program.call e _
    congr 1
    funext r
    exact ih r

/-- The program can end with `a`, where the calls are answered as `ok` allows. -/
inductive Yields (ok : (e : E) → R e → Prop) : Program E R α → α → Prop where
  | done (a : α) : Yields ok (.done a) a
  | call {e : E} {k : R e → Program E R α} {r : R e} {a : α} (he : ok e r) (h : Yields ok (k r) a) :
      Yields ok (.call e k) a

section Yields

variable {ok : (e : E) → R e → Prop} {p : Program E R α} {f : α → Program E R β} {b : β}

theorem Yields.bind {a : α} (hp : Yields ok p a) (hf : Yields ok (f a) b) :
    Yields ok (p >>= f) b := by
  induction hp with
  | done a => exact hf
  | call he _ ih => exact .call he (ih hf)

theorem yields_bind (h : Yields ok (p >>= f) b) : ∃ a, Yields ok p a ∧ Yields ok (f a) b := by
  induction p with
  | done a => exact ⟨a, .done a, h⟩
  | call e k ih =>
    cases h with
    | call he h =>
      obtain ⟨a, ha, hb⟩ := ih _ h
      exact ⟨a, .call he ha, hb⟩

end Yields

end Program

/-- `serve s e x` is the answer to `e` and the store after it when the surroundings choose `x`;
`lose s e` is the store when the process stops inside the call, `stop s` when it stops. -/
structure Surroundings (σ E : Type) (R : E → Type) (ρ ε : Type) where
  serve : σ → (e : E) → ρ → Option (R e × σ)
  lose : σ → E → σ
  stop : σ → σ
  surround : σ → ε → Option σ

/-- The answers, crashes and outside steps a run may have. -/
structure Policy (σ E ρ ε : Type) where
  reply : σ → E → ρ → Prop
  lose : σ → E → Prop
  crash : σ → Prop
  surround : σ → ε → Prop

def Policy.any {σ E ρ ε : Type} : Policy σ E ρ ε :=
  ⟨fun _ _ _ => True, fun _ _ => True, fun _ => True, fun _ _ => True⟩

/-- An invariant of the store, and what a call needs of it. -/
structure Contract (σ E ρ ε : Type) where
  policy : Policy σ E ρ ε
  inv : σ → Prop
  needs : σ → E → Prop

section Safety

variable {σ E ρ ε α β : Type} {R : E → Type}

/-- What the surroundings may have done between two calls. -/
def Surroundings.Rely (S : Surroundings σ E R ρ ε) (P : Policy σ E ρ ε) : σ → σ → Prop :=
  Relation.ReflTransGen fun s t => ∃ x, P.surround s x ∧ S.surround s x = some t

/-- The calls of the program have what they need, and `Q` holds of its result. -/
def Safe (S : Surroundings σ E R ρ ε) (C : Contract σ E ρ ε) (Q : α → σ → Prop) :
    Program E R α → σ → Prop
  | .done a, s => Q a s
  | .call e k, s => ∀ s', S.Rely C.policy s s' → C.inv s' → C.needs s' e ∧
      ∀ x r t, C.policy.reply s' e x → S.serve s' e x = some (r, t) → C.inv t → Safe S C Q (k r) t

variable {S : Surroundings σ E R ρ ε} {C : Contract σ E ρ ε} {Q : α → σ → Prop}

/-- The surroundings keep the property. -/
def Surroundings.Stable (S : Surroundings σ E R ρ ε) (P : Policy σ E ρ ε) (A : σ → Prop) : Prop :=
  ∀ s x t, A s → P.surround s x → S.surround s x = some t → A t

theorem Surroundings.Stable.rely {P : Policy σ E ρ ε} {A : σ → Prop} (hA : S.Stable P A)
    {s t : σ} (h : S.Rely P s t) (hs : A s) : A t := by
  induction h with
  | refl => exact hs
  | tail _ hst ih =>
    obtain ⟨x, hp, hx⟩ := hst
    exact hA _ x _ ih hp hx

theorem Safe.stable (hQ : ∀ a, S.Stable C.policy (Q a)) (p : Program E R α) :
    S.Stable C.policy (Safe S C Q p) := by
  intro s x t hs hp hx
  cases p with
  | done a => exact hQ a s x t hs hp hx
  | call e k =>
    intro s' hs' hI
    exact hs s' (.head ⟨x, hp, hx⟩ hs') hI

theorem Safe.bind {Qb : β → σ → Prop} {p : Program E R β} {f : β → Program E R α} {s : σ}
    (hp : Safe S C Qb p s) (hf : ∀ b t, Qb b t → Safe S C Q (f b) t) :
    Safe S C Q (p >>= f) s := by
  induction p generalizing s with
  | done b => exact hf b s hp
  | call e k ih =>
    intro s' hs' hI
    obtain ⟨hD, hk⟩ := hp s' hs' hI
    exact ⟨hD, fun x r t hx hr ht => ih r (hk x r t hx hr ht)⟩

theorem Safe.mono {Q' : α → σ → Prop} {p : Program E R α} {s : σ} (hp : Safe S C Q p s)
    (hQ : ∀ a t, Q a t → Q' a t) : Safe S C Q' p s := by
  induction p generalizing s with
  | done a => exact hQ a s hp
  | call e k ih =>
    intro s' hs' hI
    obtain ⟨hD, hk⟩ := hp s' hs' hI
    exact ⟨hD, fun x r t hx hr ht => ih r (hk x r t hx hr ht)⟩

end Safety

/-- A process: what it runs when it is booted, and after a result. -/
structure Machine (σ E : Type) (R : E → Type) (ρ ε α : Type) extends Surroundings σ E R ρ ε where
  Init : σ → Prop
  boot : Program E R α
  resume : α → Option (Program E R α)

namespace Machine

variable {σ E ρ ε α : Type} {R : E → Type}

structure State (σ E : Type) (R : E → Type) (α : Type) where
  store : σ
  proc : Option (Program E R α)

inductive Label (ρ ε : Type) where
  | boot
  | reply (x : ρ)
  /-- The process stops inside a call. -/
  | lose
  /-- The process stops between two calls. -/
  | crash
  | resume
  | surround (x : ε)

/-- The call the process is at, if it is at one, satisfies `q`. -/
def atCall (q : E → Prop) : Option (Program E R α) → Prop
  | some (.call e _) => q e
  | some (.done _) | none => True

instance (q : E → Prop) [DecidablePred q] :
    (p : Option (Program E R α)) → Decidable (atCall q p)
  | some (.call e _) => inferInstanceAs (Decidable (q e))
  | some (.done _) | none => .isTrue trivial

def allows (P : Policy σ E ρ ε) (s : State σ E R α) : Label ρ ε → Prop
  | .boot | .resume => True
  | .reply x => atCall (fun e => P.reply s.store e x) s.proc
  | .lose => atCall (P.lose s.store) s.proc
  | .crash => P.crash s.store
  | .surround x => P.surround s.store x

instance (P : Policy σ E ρ ε) [∀ s e x, Decidable (P.reply s e x)] [∀ s e, Decidable (P.lose s e)]
    [∀ s, Decidable (P.crash s)] [∀ s x, Decidable (P.surround s x)] (s : State σ E R α) :
    (a : Label ρ ε) → Decidable (allows P s a)
  | .boot | .resume => .isTrue trivial
  | .reply x => inferInstanceAs (Decidable (atCall (fun e => P.reply s.store e x) s.proc))
  | .lose => inferInstanceAs (Decidable (atCall (P.lose s.store) s.proc))
  | .crash => inferInstanceAs (Decidable (P.crash s.store))
  | .surround x => inferInstanceAs (Decidable (P.surround s.store x))

theorem allows_any (s : State σ E R α) (a : Label ρ ε) : allows .any s a := by
  rcases s with ⟨s, _ | ⟨_ | _⟩⟩ <;> cases a <;> trivial

variable (M : Machine σ E R ρ ε α)

def next (s : State σ E R α) : Label ρ ε → Option (State σ E R α)
  | .boot =>
    match s.proc with
    | none => some { s with proc := some M.boot }
    | some _ => none
  | .reply x =>
    match s.proc with
    | some (.call e k) => (M.serve s.store e x).map fun a => ⟨a.2, some (k a.1)⟩
    | _ => none
  | .lose =>
    match s.proc with
    | some (.call e _) => some ⟨M.stop (M.lose s.store e), none⟩
    | _ => none
  | .crash =>
    match s.proc with
    | some _ => some ⟨M.stop s.store, none⟩
    | none => none
  | .resume =>
    match s.proc with
    | some (.done a) =>
      match M.resume a with
      | some p => some { s with proc := some p }
      | none => some ⟨M.stop s.store, none⟩
    | _ => none
  | .surround x => (M.surround s.store x).map fun t => { s with store := t }

def system : LTS (State σ E R α) (Label ρ ε) :=
  .ofOption (fun s => M.Init s.store ∧ s.proc = none) M.next

/-- The runs that keep to a policy. -/
def under (P : Policy σ E ρ ε) : LTS (State σ E R α) (Label ρ ε) := M.system.guard (allows P)

variable {M} {C : Contract σ E ρ ε} {Q : α → σ → Prop}

theorem reachable_any {s : State σ E R α} (h : M.system.Reachable s) :
    (M.under .any).Reachable s := by
  obtain ⟨s₀, l, h0, hr⟩ := h
  refine ⟨s₀, l, h0, ?_⟩
  clear h0
  induction hr with
  | nil => exact .nil _
  | cons hs _ ih => exact .cons ⟨allows_any _ _, hs⟩ ih

/-- What a proof about a machine owes: the steps that are not the program's own keep the
invariant, and so do the program's steps when their needs are met. -/
structure Kept (M : Machine σ E R ρ ε α) (C : Contract σ E ρ ε) : Prop where
  init : ∀ s, M.Init s → C.inv s
  reply : ∀ s e x r t, C.inv s → C.needs s e → C.policy.reply s e x →
    M.serve s e x = some (r, t) → C.inv t
  lose : ∀ s e, C.inv s → C.needs s e → C.policy.lose s e → C.inv (M.stop (M.lose s e))
  stop : ∀ s, C.inv s → C.policy.crash s → C.inv (M.stop s)
  surround : M.Stable C.policy C.inv

/-- **The rule for machines.** `B` is what holds of the store while the process is not running. -/
theorem reachable_safe (kept : M.Kept C) (hQ : ∀ a, M.Stable C.policy (Q a))
    {B : σ → Prop} (hB : M.Stable C.policy B) (start : ∀ s, M.Init s → B s)
    (stopped : ∀ s, B (M.stop s))
    (boot : ∀ s, C.inv s → B s → Safe M.toSurroundings C Q M.boot s)
    (resume : ∀ a s p, C.inv s → Q a s → M.resume a = some p → Safe M.toSurroundings C Q p s)
    (exit : ∀ a s, C.inv s → Q a s → M.resume a = none → C.inv (M.stop s))
    {s : State σ E R α} (hs : (M.under C.policy).Reachable s) :
    C.inv s.store ∧ (s.proc = none → B s.store) ∧
      ∀ p, s.proc = some p → Safe M.toSurroundings C Q p s.store := by
  refine hs.inv (I := fun s => C.inv s.store ∧ (s.proc = none → B s.store) ∧
    ∀ p, s.proc = some p → Safe M.toSurroundings C Q p s.store) ?_ ?_
  · rintro s ⟨hi, hp⟩
    exact ⟨kept.init _ hi, fun _ => start _ hi, fun p h => by simp [hp] at h⟩
  · rintro ⟨s, proc⟩ a t ⟨hI, hrest, hsafe⟩ ⟨hallow, hstep⟩
    cases a with
    | boot =>
      cases proc with
      | some p => simp [system, LTS.ofOption, next] at hstep
      | none =>
        cases hstep
        exact ⟨hI, fun h => (by cases h), fun p h => by cases h; exact boot s hI (hrest rfl)⟩
    | reply x =>
      rcases proc with _ | ⟨a⟩ | ⟨e, k⟩
      · simp [system, LTS.ofOption, next] at hstep
      · simp [system, LTS.ofOption, next] at hstep
      · obtain ⟨⟨r, u⟩, hserve, rfl⟩ := Option.map_eq_some_iff.1 hstep
        obtain ⟨hD, hk⟩ := hsafe _ rfl s .refl hI
        have hu : C.inv u := kept.reply s e x r u hI hD hallow hserve
        exact ⟨hu, fun h => (by cases h), fun p h => by cases h; exact hk x r u hallow hserve hu⟩
    | lose =>
      rcases proc with _ | ⟨a⟩ | ⟨e, k⟩
      · simp [system, LTS.ofOption, next] at hstep
      · simp [system, LTS.ofOption, next] at hstep
      · cases hstep
        obtain ⟨hD, -⟩ := hsafe _ rfl s .refl hI
        exact ⟨kept.lose s e hI hD hallow, fun _ => stopped _, fun p h => by cases h⟩
    | crash =>
      cases proc with
      | none => simp [system, LTS.ofOption, next] at hstep
      | some p =>
        cases hstep
        exact ⟨kept.stop s hI hallow, fun _ => stopped _, fun p h => by cases h⟩
    | resume =>
      rcases proc with _ | ⟨a⟩ | ⟨e, k⟩
      · simp [system, LTS.ofOption, next] at hstep
      · have hq : Q a s := hsafe _ rfl
        cases hr : M.resume a with
        | some p =>
          simp only [system, LTS.ofOption, next, hr, Option.some.injEq] at hstep
          subst hstep
          exact ⟨hI, fun h => (by cases h),
            fun p' h => by cases h; exact resume a s p hI hq hr⟩
        | none =>
          simp only [system, LTS.ofOption, next, hr, Option.some.injEq] at hstep
          subst hstep
          exact ⟨exit a s hI hq hr, fun _ => stopped _, fun p h => by cases h⟩
      · simp [system, LTS.ofOption, next] at hstep
    | surround x =>
      obtain ⟨u, hu, rfl⟩ := Option.map_eq_some_iff.1 hstep
      refine ⟨kept.surround s x u hI hallow hu,
        fun h => hB s x u (hrest h) hallow hu, fun p h => ?_⟩
      exact Safe.stable hQ p s x u (hsafe p h) hallow hu

end Machine

end Ceo.Lib
