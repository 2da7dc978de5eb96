import Mathlib.Data.List.Infix
import Mathlib.Data.List.Range

/-!
# Occurrences of a list in another

The search for the next occurrence from a position on (`indexOf` of JavaScript,
for a needle that is not empty), and the positions that repeated search goes
through: all occurrences, the overlapping ones included.
-/

namespace Ceo.Lib.Occurs

variable {α : Type} [BEq α] {needle hay : List α}

/-- The first position from `start` on where the needle stands. -/
def indexOf (needle hay : List α) (start : Nat) : Option Nat :=
  (List.range' start (hay.length + 1 - start)).find? fun i => needle.isPrefixOf (hay.drop i)

/-- The positions from `start` on where the needle stands. -/
def positions (needle hay : List α) (start : Nat) : List Nat :=
  (List.range' start (hay.length + 1 - start)).filter fun i => needle.isPrefixOf (hay.drop i)

theorem indexOf_bounds {start i : Nat} (h : indexOf needle hay start = some i) :
    start ≤ i ∧ i ≤ hay.length := by
  have hmem := List.mem_range'_1.1 (List.mem_of_find?_eq_some h)
  omega

theorem filter_of_find? {p : Nat → Bool} {n start i : Nat}
    (h : (List.range' start n).find? p = some i) :
    (List.range' start n).filter p = i :: (List.range' (i + 1) (start + n - (i + 1))).filter p := by
  induction n generalizing start with
  | zero => cases h
  | succ n ih =>
    rw [List.range'_succ] at h ⊢
    cases hp : p start with
    | true =>
      rw [List.find?_cons_of_pos hp] at h
      obtain rfl := Option.some.inj h
      have hn : start + (n + 1) - (start + 1) = n := by omega
      rw [List.filter_cons_of_pos hp, hn]
    | false =>
      have hp : ¬p start = true := by simp [hp]
      rw [List.find?_cons_of_neg hp] at h
      have hn : start + 1 + n - (i + 1) = start + (n + 1) - (i + 1) := by omega
      rw [List.filter_cons_of_neg hp, ih h, hn]

/-- Where the search ends without an occurrence there is none. -/
theorem positions_none {start : Nat} (h : indexOf needle hay start = none) :
    positions needle hay start = [] := by
  refine List.filter_eq_nil_iff.2 fun i hi => ?_
  exact List.find?_eq_none.1 h i hi

/-- What the search finds is the first of the occurrences; the others come after it. -/
theorem positions_some {start i : Nat} (h : indexOf needle hay start = some i) :
    positions needle hay start = i :: positions needle hay (i + 1) := by
  have hb := indexOf_bounds h
  have hn : start + (hay.length + 1 - start) - (i + 1) = hay.length + 1 - (i + 1) := by omega
  unfold positions
  rw [filter_of_find? h, hn]

theorem positions_nodup {start : Nat} : (positions needle hay start).Nodup :=
  List.Pairwise.filter _ List.nodup_range'

variable [LawfulBEq α]

theorem mem_positions {start i : Nat} :
    i ∈ positions needle hay start ↔ start ≤ i ∧ i ≤ hay.length ∧ needle <+: hay.drop i := by
  unfold positions
  rw [List.mem_filter, List.mem_range'_1, List.isPrefixOf_iff_prefix]
  constructor
  · rintro ⟨⟨hstart, hend⟩, h⟩
    exact ⟨hstart, by omega, h⟩
  · rintro ⟨hstart, hend, h⟩
    exact ⟨⟨hstart, by omega⟩, h⟩

/-- A position of the needle splits the list around it. -/
theorem mem_positions_iff {i : Nat} : i ∈ positions needle hay 0 ↔
    ∃ pre post, hay = pre ++ needle ++ post ∧ pre.length = i := by
  rw [mem_positions]
  constructor
  · rintro ⟨-, hi, post, hpost⟩
    refine ⟨hay.take i, post, ?_, List.length_take_of_le hi⟩
    rw [List.append_assoc, hpost, List.take_append_drop]
  · rintro ⟨pre, post, rfl, rfl⟩
    refine ⟨Nat.zero_le _, by simp, ?_⟩
    rw [List.append_assoc, List.drop_left]
    exact List.prefix_append needle post

/-- One occurrence: any two ways of splitting the list around the needle are the same. -/
theorem positions_single {pre post : List α} (h : positions needle hay 0 = [pre.length])
    (hsplit : hay = pre ++ needle ++ post) {pre' post' : List α}
    (hsplit' : hay = pre' ++ needle ++ post') : pre' = pre ∧ post' = post := by
  have hmem : pre'.length ∈ positions needle hay 0 := mem_positions_iff.2 ⟨pre', post', hsplit', rfl⟩
  rw [h, List.mem_singleton] at hmem
  have heq : pre ++ (needle ++ post) = pre' ++ (needle ++ post') := by
    rw [← List.append_assoc, ← List.append_assoc, ← hsplit, ← hsplit']
  obtain ⟨hpre, hrest⟩ := List.append_inj heq hmem.symm
  exact ⟨hpre.symm, (List.append_cancel_left hrest).symm⟩

end Ceo.Lib.Occurs
