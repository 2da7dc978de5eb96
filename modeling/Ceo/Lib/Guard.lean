/-!
# Sequential checks

A validator that throws at its first failing check is a list of guards: each
one a condition with the message thrown when it does not hold.
-/

namespace Ceo.Lib

structure Guard where
  holds : Bool
  message : String

namespace Guard

/-- The checks in order; the first that fails gives the error. -/
def run : List Guard → Except String Unit
  | [] => .ok ()
  | g :: gs => if g.holds then run gs else .error g.message

def All (gs : List Guard) : Prop := ∀ g ∈ gs, g.holds = true

/-- The same checks, with the error of an inner validator wrapped. -/
def wrap (pre : String) (gs : List Guard) : List Guard :=
  gs.map fun g => ⟨g.holds, pre ++ g.message⟩

@[simp] theorem all_nil : All [] := by simp [All]

@[simp] theorem all_cons (g : Guard) (gs : List Guard) :
    All (g :: gs) ↔ g.holds = true ∧ All gs := by simp [All]

@[simp] theorem all_append (gs hs : List Guard) : All (gs ++ hs) ↔ All gs ∧ All hs := by
  simp [All, or_imp, forall_and]

@[simp] theorem all_wrap (pre : String) (gs : List Guard) : All (wrap pre gs) ↔ All gs := by
  simp [All, wrap]

theorem run_ok_iff (gs : List Guard) : run gs = .ok () ↔ All gs := by
  induction gs with
  | nil => simp [run]
  | cons g gs ih => cases h : g.holds <;> simp [run, h, ih]

end Guard

end Ceo.Lib
