import Mathlib.Data.List.Basic

/-!
# Lines with their ends

A list is cut behind each separator. Pieces of a front that a separator ends do
not depend on what follows, so a piece can be put in or taken out between two
others without a change to the rest.
-/

namespace Ceo.Lib.Lines

variable {α : Type} [DecidableEq α] {sep : α}

/-- The pieces of a list, each with the separator that ends it. -/
def pieces (sep : α) : List α → List (List α)
  | [] => []
  | c :: cs =>
    if c = sep then [c] :: pieces sep cs
    else
      match pieces sep cs with
      | [] => [[c]]
      | l :: ls => (c :: l) :: ls

/-- Nothing, or the end of a piece. -/
def Ended (sep : α) (t : List α) : Prop := t = [] ∨ t.getLast? = some sep

theorem pieces_ne_nil {t : List α} (h : t ≠ []) : pieces sep t ≠ [] := by
  cases t with
  | nil => exact absurd rfl h
  | cons c cs =>
    unfold pieces
    split_ifs
    · exact List.cons_ne_nil _ _
    · split <;> exact List.cons_ne_nil _ _

theorem flatten_pieces (t : List α) : (pieces sep t).flatten = t := by
  induction t with
  | nil => rfl
  | cons c cs ih =>
    unfold pieces
    split_ifs
    · rw [List.flatten_cons, ih]
      rfl
    · cases hp : pieces sep cs with
      | nil =>
        rw [hp] at ih
        rw [← ih]
        rfl
      | cons l ls =>
        rw [hp] at ih
        rw [← ih]
        rfl

theorem pieces_nonempty (t : List α) : [] ∉ pieces sep t := by
  induction t with
  | nil => simp [pieces]
  | cons c cs ih =>
    unfold pieces
    split_ifs
    · simpa using ih
    · split
      · simp
      · next heq =>
        rw [heq] at ih
        simpa using fun h => ih (List.mem_cons_of_mem _ h)

/-- What follows the end of a piece is cut on its own. -/
theorem pieces_append {x : List α} (hx : Ended sep x) (y : List α) :
    pieces sep (x ++ y) = pieces sep x ++ pieces sep y := by
  induction x with
  | nil => rfl
  | cons c cs ih =>
    by_cases hcs : cs = []
    · subst hcs
      obtain rfl : c = sep := by simpa [Ended] using hx
      simp [pieces]
    · have hended : Ended sep cs := by
        obtain ⟨d, ds, rfl⟩ := List.exists_cons_of_ne_nil hcs
        simpa [Ended] using hx
      rw [List.cons_append, pieces, ih hended, pieces]
      split_ifs
      · rfl
      · cases hp : pieces sep cs with
        | nil => exact absurd hp (pieces_ne_nil hcs)
        | cons l ls => rfl

theorem pieces_single {x : List α} (hx : sep ∉ x) (hne : x ≠ []) : pieces sep x = [x] := by
  induction x with
  | nil => exact absurd rfl hne
  | cons c cs ih =>
    rw [List.mem_cons, not_or] at hx
    unfold pieces
    rw [if_neg (Ne.symm hx.1)]
    cases cs with
    | nil => rfl
    | cons d ds => rw [ih hx.2 (List.cons_ne_nil _ _)]

omit [DecidableEq α] in
theorem ended_append (x : List α) : Ended sep (x ++ [sep]) := .inr (by simp)

theorem pieces_piece {x : List α} (hx : sep ∉ x) : pieces sep (x ++ [sep]) = [x ++ [sep]] := by
  induction x with
  | nil => simp [pieces]
  | cons c cs ih =>
    rw [List.mem_cons, not_or] at hx
    rw [List.cons_append, pieces, if_neg (Ne.symm hx.1), ih hx.2]

theorem pieces_cons {x : List α} (hx : sep ∉ x) (y : List α) :
    pieces sep (x ++ sep :: y) = (x ++ [sep]) :: pieces sep y := by
  have : x ++ sep :: y = (x ++ [sep]) ++ y := by simp
  rw [this, pieces_append (ended_append x), pieces_piece hx]
  rfl

/-- A front of the pieces is the pieces of a front. -/
theorem pieces_split {t : List α} {A R : List (List α)} (h : pieces sep t = A ++ R) (hR : R ≠ []) :
    ∃ x y, t = x ++ y ∧ Ended sep x ∧ pieces sep x = A ∧ pieces sep y = R := by
  induction A generalizing t with
  | nil => exact ⟨[], t, rfl, .inl rfl, rfl, h⟩
  | cons l A ih =>
    have hmem : sep ∈ t := by
      by_contra hno
      have ht : t ≠ [] := by
        rintro rfl
        cases h
      rw [pieces_single hno ht] at h
      exact hR (List.append_eq_nil_iff.1 (List.cons.inj h).2.symm).2
    obtain ⟨z, t', rfl, hz⟩ := List.eq_append_cons_of_mem hmem
    rw [pieces_cons hz, List.cons_append] at h
    obtain ⟨rfl, hrest⟩ := List.cons.inj h
    obtain ⟨x, y, rfl, hx, hA, hy⟩ := ih hrest
    refine ⟨z ++ [sep] ++ x, y, by simp, ?_, ?_, hy⟩
    · rcases hx with rfl | hx
      · rw [List.append_nil]
        exact ended_append z
      · exact .inr (by rw [List.getLast?_append, hx]; rfl)
    · rw [pieces_append (ended_append z), pieces_piece hz, hA]
      rfl

/-- What is not ended has a last piece that is not. -/
theorem exists_last {t : List α} (h : ¬ Ended sep t) :
    ∃ x z, t = x ++ z ∧ Ended sep x ∧ sep ∉ z ∧ z ≠ [] := by
  by_cases hmem : sep ∈ t
  · obtain ⟨z, x, hr, hz⟩ := List.eq_append_cons_of_mem (List.mem_reverse.2 hmem)
    obtain rfl : t = x.reverse ++ [sep] ++ z.reverse := by
      rw [← List.reverse_reverse t, hr]
      simp
    refine ⟨x.reverse ++ [sep], z.reverse, rfl, ended_append _, by simpa using hz, ?_⟩
    intro hnil
    rw [hnil, List.append_nil] at h
    exact h (ended_append _)
  · refine ⟨[], t, rfl, .inl rfl, hmem, ?_⟩
    rintro rfl
    exact h (.inl rfl)

end Ceo.Lib.Lines
