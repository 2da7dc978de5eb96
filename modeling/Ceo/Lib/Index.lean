import Ceo.Lib.Keyed
import Mathlib.Logic.Function.Basic

/-!
# Secondary indexes

An index of a keyed list takes a value of another field to the key of the
member that has it. `Indexes f index s` says that it knows exactly the members
there are; each operation on the list has the update of the index that keeps it.
-/

namespace Ceo.Lib

variable {α γ κ : Type} {key : α → κ}

def Indexes (f : α → γ) (index : γ → Option κ) (s : Keyed key) : Prop :=
  ∀ c k, index c = some k ↔ ∃ a ∈ s.items, f a = c ∧ key a = k

namespace Indexes

variable {f : α → γ} {index : γ → Option κ} {s : Keyed key} {a a' b : α}

theorem empty : Indexes f (fun _ => none) (Keyed.empty : Keyed key) := by
  intro c k
  constructor
  · rintro ⟨⟩
  · rintro ⟨a, ha, -⟩
    cases ha

/-- Two members with one value are one. -/
theorem unique (h : Indexes f index s) (ha : a ∈ s.items) (hb : b ∈ s.items) (hf : f a = f b) :
    a = b := by
  have hka := (h (f a) (key a)).2 ⟨a, ha, rfl, rfl⟩
  have hkb := (h (f a) (key b)).2 ⟨b, hb, hf.symm, rfl⟩
  exact Keyed.eq_of_key ha hb (Option.some.inj (hka.symm.trans hkb))

/-- What an index does not know, no member has. -/
theorem free (h : Indexes f index s) {c : γ} (hc : index c = none) : ∀ b ∈ s.items, f b ≠ c := by
  rintro b hb rfl
  rw [(h (f b) (key b)).2 ⟨b, hb, rfl, rfl⟩] at hc
  cases hc

variable [DecidableEq κ]

/-- What the index leads to is the member with that value. -/
theorem bind_find (h : Indexes f index s) {c : γ} :
    (index c).bind s.find = some a ↔ a ∈ s.items ∧ f a = c := by
  constructor
  · intro hbind
    obtain ⟨k, hk, hfind⟩ := Option.bind_eq_some_iff.1 hbind
    obtain ⟨ha, hka⟩ := Keyed.find_eq_some hfind
    obtain ⟨b, hb, hfb, hkb⟩ := (h c k).1 hk
    rw [Keyed.eq_of_key ha hb (hka.trans hkb.symm)]
    exact ⟨hb, hfb⟩
  · rintro ⟨ha, rfl⟩
    rw [(h (f a) (key a)).2 ⟨a, ha, rfl, rfl⟩, Option.bind_some]
    cases hfind : s.find (key a) with
    | none =>
      have := List.find?_eq_none.1 hfind a ha
      simp at this
    | some b =>
      obtain ⟨hb, hkb⟩ := Keyed.find_eq_some hfind
      rw [Keyed.eq_of_key hb ha hkb]

theorem put (h : Indexes f index s) (ha : a ∈ s.items) (hk : key a' = key a) (hf : f a' = f a) :
    Indexes f index (s.put a') := by
  intro c k
  rw [h c k]
  constructor
  · rintro ⟨b, hb, hfb, hkb⟩
    by_cases hba : key b = key a'
    · rw [Keyed.eq_of_key hb ha (hba.trans hk)] at hfb hkb
      exact ⟨a', (Keyed.mem_put ha hk).2 (.inl rfl), hf.trans hfb, hk.trans hkb⟩
    · exact ⟨b, (Keyed.mem_put ha hk).2 (.inr ⟨hb, hba⟩), hfb, hkb⟩
  · rintro ⟨b, hb, hfb, hkb⟩
    rcases (Keyed.mem_put ha hk).1 hb with rfl | ⟨hb, -⟩
    · exact ⟨a, ha, hf.symm.trans hfb, hk.symm.trans hkb⟩
    · exact ⟨b, hb, hfb, hkb⟩

variable [DecidableEq γ]

theorem erase (h : Indexes f index s) (ha : a ∈ s.items) :
    Indexes f (Function.update index (f a) none) (s.erase (key a)) := by
  intro c k
  by_cases hc : c = f a
  · rw [hc, Function.update_self]
    constructor
    · rintro ⟨⟩
    · rintro ⟨b, hb, hfb, -⟩
      obtain ⟨hb, hne⟩ := Keyed.mem_erase.1 hb
      exact absurd (congrArg key (h.unique hb ha hfb)) hne
  · rw [Function.update_of_ne hc, h c k]
    constructor
    · rintro ⟨b, hb, rfl, rfl⟩
      refine ⟨b, Keyed.mem_erase.2 ⟨hb, fun hk => hc ?_⟩, rfl, rfl⟩
      rw [Keyed.eq_of_key hb ha hk]
    · rintro ⟨b, hb, hfb, hkb⟩
      exact ⟨b, (Keyed.mem_erase.1 hb).1, hfb, hkb⟩

theorem set (h : Indexes f index s) (fresh : ∀ b ∈ s.items, key b ≠ key a)
    (free : ∀ b ∈ s.items, f b ≠ f a) :
    Indexes f (Function.update index (f a) (some (key a))) (s.set a) := by
  intro c k
  by_cases hc : c = f a
  · rw [hc, Function.update_self]
    constructor
    · intro hk
      exact ⟨a, Keyed.mem_set.2 (.inl rfl), rfl, Option.some.inj hk⟩
    · rintro ⟨b, hb, hfb, hkb⟩
      rcases Keyed.mem_set.1 hb with rfl | ⟨hb, -⟩
      · exact congrArg some hkb
      · exact absurd hfb (free b hb)
  · rw [Function.update_of_ne hc, h c k]
    constructor
    · rintro ⟨b, hb, hfb, hkb⟩
      exact ⟨b, Keyed.mem_set.2 (.inr ⟨hb, fresh b hb⟩), hfb, hkb⟩
    · rintro ⟨b, hb, hfb, hkb⟩
      rcases Keyed.mem_set.1 hb with rfl | ⟨hb, -⟩
      · exact absurd hfb.symm hc
      · exact ⟨b, hb, hfb, hkb⟩

end Indexes

end Ceo.Lib
