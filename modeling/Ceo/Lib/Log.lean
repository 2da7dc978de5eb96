import Ceo.Lib.Program

/-!
# What a program has called so far

The log of a program is the calls it made with their answers, in order. `Path`
is a run of it up to any point, whatever the answers are. `Along` is the
assertion that carries a proof along every path: what the log says when a call
is made, and what it says when the program ends.
-/

namespace Ceo.Lib.Program

variable {E : Type} {R : E → Type} {α β : Type}

abbrev Log (E : Type) (R : E → Type) : Type := List (Σ e : E, R e)

/-- The program made the calls of the log, got these answers, and is `q` now. -/
inductive Path : Program E R α → Log E R → Program E R α → Prop where
  | here (p : Program E R α) : Path p [] p
  | call {e : E} {k : R e → Program E R α} (r : R e) {l : Log E R} {q : Program E R α}
      (h : Path (k r) l q) : Path (.call e k) (⟨e, r⟩ :: l) q

theorem Path.perform {e : E} {f : R e → Program E R α} (r : R e) {l : Log E R} {q : Program E R α}
    (h : Path (f r) l q) : Path (Program.perform e >>= f) (⟨e, r⟩ :: l) q := .call r h

theorem Path.bind {p : Program E R β} {f : β → Program E R α} {b : β} {l m : Log E R}
    {q : Program E R α} (h : Path p l (.done b)) (h' : Path (f b) m q) :
    Path (p >>= f) (l ++ m) q := by
  induction p generalizing l with
  | done a =>
    cases h
    exact h'
  | call e k ih =>
    cases h with
    | call r h => exact .call r (ih r h)

/-- The calls that `C` allows after the log, and `Q` at the end. -/
def Along (C : Log E R → E → Prop) (Q : Log E R → α → Prop) :
    Program E R α → Log E R → Prop
  | .done a, l => Q l a
  | .call e k, l => C l e ∧ ∀ r, Along C Q (k r) (l ++ [⟨e, r⟩])

variable {C : Log E R → E → Prop} {Q : Log E R → α → Prop}

theorem along_done {a : α} {l : Log E R} : Along C Q (.done a) l ↔ Q l a := .rfl

theorem along_call {e : E} {k : R e → Program E R α} {l : Log E R} :
    Along C Q (.call e k) l ↔ C l e ∧ ∀ r, Along C Q (k r) (l ++ [⟨e, r⟩]) := .rfl

-- from here on no proof evaluates a program to see which call comes next
attribute [irreducible] Along

theorem Along.ret {a : α} {l : Log E R} (h : Q l a) : Along C Q (pure a) l := along_done.2 h

theorem Along.perform {e : E} {f : R e → Program E R α} {l : Log E R} (hC : C l e)
    (h : ∀ r, Along C Q (f r) (l ++ [⟨e, r⟩])) : Along C Q (Program.perform e >>= f) l :=
  along_call.2 ⟨hC, h⟩

theorem Along.bind {Qb : Log E R → β → Prop} {p : Program E R β} {f : β → Program E R α}
    {l : Log E R} (hp : Along C Qb p l) (hf : ∀ b m, Qb m b → Along C Q (f b) m) :
    Along C Q (p >>= f) l := by
  induction p generalizing l with
  | done b => exact hf b l (along_done.1 hp)
  | call e k ih =>
    obtain ⟨hC, hk⟩ := along_call.1 hp
    exact along_call.2 ⟨hC, fun r => ih r (hk r)⟩

theorem Along.mono {Q' : Log E R → α → Prop} {p : Program E R α} {l : Log E R}
    (hp : Along C Q p l) (hQ : ∀ m a, Q m a → Q' m a) : Along C Q' p l := by
  induction p generalizing l with
  | done a => exact along_done.2 (hQ l a (along_done.1 hp))
  | call e k ih =>
    obtain ⟨hC, hk⟩ := along_call.1 hp
    exact along_call.2 ⟨hC, fun r => ih r (hk r)⟩

theorem Along.path {p q : Program E R α} {l m : Log E R} (hp : Along C Q p l)
    (h : Path p m q) : Along C Q q (l ++ m) := by
  induction h generalizing l with
  | here p => simpa using hp
  | call r _ ih => simpa using ih ((along_call.1 hp).2 r)

theorem Along.at_call {p : Program E R α} {e : E} {k : R e → Program E R α} {l : Log E R}
    (hp : Along C Q p []) (h : Path p l (.call e k)) : C l e := (along_call.1 (hp.path h)).1

theorem Along.at_end {p : Program E R α} {a : α} {l : Log E R} (hp : Along C Q p [])
    (h : Path p l (.done a)) : Q l a := along_done.1 (hp.path h)

end Ceo.Lib.Program
