import Mathlib.Data.List.Basic
import Mathlib.Data.List.Perm.Basic

/-!
# Stable sorting by a key

A merge sort by a key keeps the elements of each key in their order, so it
depends on nothing but these: two lists with the same elements of each key,
each in the same order, have the same sort.
-/

namespace Ceo.Lib.StableSort

variable {α κ : Type} [DecidableEq κ] (key : α → κ) (le : κ → κ → Bool)

def sortBy (l : List α) : List α := l.mergeSort fun a b => le (key a) (key b)

/-- The elements of a key, in their order. -/
def ofKey (k : κ) (l : List α) : List α := l.filter fun a => key a == k

structure Order : Prop where
  trans : ∀ a b c, le a b = true → le b c = true → le a c = true
  total : ∀ a b, (le a b || le b a) = true
  antisymm : ∀ a b, le a b = true → le b a = true → a = b

variable {key le} (o : Order le)

include o

theorem pairwise_sortBy (l : List α) :
    (sortBy key le l).Pairwise fun a b => le (key a) (key b) = true :=
  List.pairwise_mergeSort (fun a b c => o.trans (key a) (key b) (key c))
    (fun a b => o.total (key a) (key b)) l

theorem ofKey_sortBy (k : κ) (l : List α) : ofKey key k (sortBy key le l) = ofKey key k l := by
  have refl (a : κ) : le a a = true := by simpa using o.total a a
  have pairwise : (ofKey key k l).Pairwise fun a b => le (key a) (key b) = true := by
    rw [List.pairwise_iff_forall_sublist]
    intro a b hab
    have hk {c : α} (hc : c ∈ [a, b]) : key c = k := by
      simpa using (List.mem_filter.1 (hab.subset hc)).2
    rw [hk (by simp), hk (by simp)]
    exact refl k
  have sub : (ofKey key k l).Sublist (sortBy key le l) :=
    List.sublist_mergeSort (fun a b c => o.trans (key a) (key b) (key c))
      (fun a b => o.total (key a) (key b)) pairwise List.filter_sublist
  have sub' : (ofKey key k l).Sublist (ofKey key k (sortBy key le l)) := by
    have := sub.filter fun a => key a == k
    simpa [ofKey] using this
  refine (sub'.eq_of_length ?_).symm
  exact ((List.mergeSort_perm l _).filter _).length_eq.symm

theorem eq_of_ofKey {l m : List α} (hl : l.Pairwise fun a b => le (key a) (key b) = true)
    (hm : m.Pairwise fun a b => le (key a) (key b) = true)
    (h : ∀ k, ofKey key k l = ofKey key k m) : l = m := by
  have refl (a : κ) : le a a = true := by simpa using o.total a a
  induction l generalizing m with
  | nil =>
    cases m with
    | nil => rfl
    | cons b m =>
      have := h (key b)
      simp [ofKey] at this
  | cons a l ih =>
    cases m with
    | nil =>
      have := h (key a)
      simp [ofKey] at this
    | cons b m =>
      rw [List.pairwise_cons] at hl hm
      -- each head has the key of some element of the other list
      have first {c d : α} {t u : List α} (ht : ∀ x ∈ t, le (key c) (key x) = true)
          (hk : ofKey key (key d) (c :: t) = ofKey key (key d) (d :: u)) :
          le (key c) (key d) = true := by
        have hd : d ∈ ofKey key (key d) (c :: t) := by
          rw [hk]
          simp [ofKey]
        obtain ⟨hmem, -⟩ := List.mem_filter.1 hd
        rcases List.mem_cons.1 hmem with rfl | hmem
        · exact refl _
        · exact ht d hmem
      have hab : key a = key b :=
        o.antisymm _ _ (first hl.1 (h (key b))) (first hm.1 (h (key a)).symm)
      have heads := h (key a)
      simp only [ofKey, List.filter_cons, beq_self_eq_true, if_true, hab] at heads
      obtain ⟨rfl, -⟩ := List.cons.inj heads
      refine congrArg (a :: ·) (ih hl.2 hm.2 fun k => ?_)
      have hk := h k
      simp only [ofKey, List.filter_cons] at hk
      split at hk
      · exact (List.cons.inj hk).2
      · exact hk

/-- The sort depends on the elements of each key and their order only. -/
theorem sortBy_congr {l m : List α} (h : ∀ k, ofKey key k l = ofKey key k m) :
    sortBy key le l = sortBy key le m :=
  eq_of_ofKey o (pairwise_sortBy o l) (pairwise_sortBy o m) fun k => by
    rw [ofKey_sortBy o, ofKey_sortBy o, h]

theorem sortBy_sortBy (l : List α) : sortBy key le (sortBy key le l) = sortBy key le l :=
  List.mergeSort_of_pairwise (pairwise_sortBy o l)

omit o in
theorem mem_sortBy {l : List α} {a : α} : a ∈ sortBy key le l ↔ a ∈ l :=
  (List.mergeSort_perm l _).mem_iff

end Ceo.Lib.StableSort
