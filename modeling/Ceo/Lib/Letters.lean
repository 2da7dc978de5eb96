import Mathlib.Data.List.Basic

/-!
# Letter case

`Char.toLower` moves characters of ASCII only, so that a fact about it is a fact
about 128 characters.
-/

namespace Ceo.Lib.Letters

/-- What holds of the first 128 characters, tried one by one. -/
theorem ascii_cases {p : Char → Bool} (h : (List.range 128).all (fun n => p (Char.ofNat n)) = true)
    {c : Char} (hc : c.toNat < 128) : p c = true := by
  have := List.all_eq_true.1 h c.toNat (List.mem_range.2 hc)
  rwa [Char.ofNat_toNat] at this

theorem toLower_of_large {c : Char} (h : 128 ≤ c.toNat) : c.toLower = c := by
  unfold Char.toLower
  refine dif_neg ?_
  rintro ⟨-, hi⟩
  have : c.toNat ≤ 90 := UInt32.le_iff_toNat_le.1 hi
  omega

theorem toLower_toLower (c : Char) : c.toLower.toLower = c.toLower := by
  by_cases hc : c.toNat < 128
  · simpa using ascii_cases (p := fun c => c.toLower.toLower == c.toLower) (by decide) hc
  · have large : c.toLower = c := toLower_of_large (by omega)
    rw [large, large]

theorem ascii_of_toLower {c : Char} (h : c.toLower.toNat < 128) : c.toNat < 128 := by
  by_contra hc
  rw [toLower_of_large (by omega)] at h
  exact hc h

/-- Maps that hit the characters of a text at the same places hit the text at the same places. -/
theorem map_eq_iff {f g : Char → Char} {l : List Char} (h : ∀ y ∈ l, ∀ c, f c = y ↔ g c = y)
    {s : List Char} :
    s.map f = l ↔ s.map g = l := by
  induction l generalizing s with
  | nil => simp
  | cons y ys ih =>
    rw [List.forall_mem_cons] at h
    cases s with
    | nil => simp
    | cons c cs => simp only [List.map_cons, List.cons.injEq, h.1 c, ih h.2]

end Ceo.Lib.Letters
