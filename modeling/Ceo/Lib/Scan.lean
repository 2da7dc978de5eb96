import Mathlib.Data.List.TakeWhile

/-!
# Scans of a list

A fold in `Except` whose steps succeed or fail whatever the state is, and may
raise a flag; and the text that is left when both ends are stripped.
-/

namespace Ceo.Lib.Scan

variable {α σ ε : Type}

/-- What a run over the list decides of its members. -/
theorem forall_mem {P : α → Prop} [DecidablePred P] {l : List α}
    (h : l.all (fun a => decide (P a)) = true) : ∀ a ∈ l, P a :=
  fun a ha => of_decide_eq_true (List.all_eq_true.1 h a ha)

/-- The fold succeeds on a list of good elements, and its flag is up when some element raised it. -/
theorem foldlM_ok {f : σ → α → Except ε σ} (flag : σ → Bool) {good kept : α → Bool}
    (ok : ∀ s x, good x = true → ∃ s', f s x = .ok s' ∧ flag s' = (flag s || kept x))
    {l : List α} (h : l.all good = true) (s : σ) :
    ∃ s', l.foldlM f s = .ok s' ∧ flag s' = (flag s || l.any kept) := by
  induction l generalizing s with
  | nil => exact ⟨s, rfl, by simp⟩
  | cons x xs ih =>
    rw [List.all_cons, Bool.and_eq_true] at h
    obtain ⟨s₁, h₁, hflag₁⟩ := ok s x h.1
    obtain ⟨s₂, h₂, hflag₂⟩ := ih h.2 s₁
    refine ⟨s₂, ?_, ?_⟩
    · rw [List.foldlM_cons, h₁]
      exact h₂
    · rw [hflag₂, hflag₁, List.any_cons, Bool.or_assoc]

/-- An element that is not good makes the fold fail. -/
theorem foldlM_error {f : σ → α → Except ε σ} {good : α → Bool}
    (bad : ∀ s x, good x = false → ∃ e, f s x = .error e)
    {l : List α} (h : l.all good = false) (s : σ) : ∃ e, l.foldlM f s = .error e := by
  induction l generalizing s with
  | nil => cases h
  | cons x xs ih =>
    rw [List.foldlM_cons]
    cases hx : f s x with
    | error e => exact ⟨e, rfl⟩
    | ok s' =>
      cases hgood : good x with
      | false =>
        obtain ⟨e, he⟩ := bad s x hgood
        rw [hx] at he
        cases he
      | true =>
        rw [List.all_cons, hgood, Bool.true_and] at h
        exact ih h s'

theorem forM_ok_iff {f : α → Except ε Unit} {l : List α} :
    l.forM f = .ok () ↔ ∀ x ∈ l, f x = .ok () := by
  induction l with
  | nil => exact ⟨fun _ x hx => (by cases hx), fun _ => rfl⟩
  | cons x xs ih =>
    rw [List.forall_mem_cons, ← ih]
    show (f x >>= fun _ => xs.forM f) = .ok () ↔ _
    cases f x with
    | error e => exact ⟨fun h => (by cases h), fun h => (by cases h.1)⟩
    | ok u => exact ⟨fun h => ⟨rfl, h⟩, fun h => h.2⟩

/-- Nothing is left of a list stripped at both ends exactly when all of it is stripped. -/
theorem strip_eq_nil_iff {p : α → Bool} {l : List α} :
    (l.dropWhile p).reverse.dropWhile p = [] ↔ l.all p = true := by
  rw [List.dropWhile_eq_nil_iff]
  constructor
  · intro h
    cases hd : l.dropWhile p with
    | nil => exact List.all_eq_true.2 (List.dropWhile_eq_nil_iff.1 hd)
    | cons c cs =>
      have hc := List.head_dropWhile_not p (l := l) (by simp [hd])
      simp only [hd, List.head_cons] at hc
      exact absurd (h c (by simp [hd])) (by simp [hc])
  · intro h c hc
    exact List.all_eq_true.1 h c (List.dropWhile_sublist p |>.subset (List.mem_reverse.1 hc))

end Ceo.Lib.Scan
