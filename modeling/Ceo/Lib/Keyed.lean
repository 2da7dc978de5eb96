import Mathlib.Data.List.Nodup

/-!
# Keyed lists

A list whose members differ in their keys: a member can be replaced, added
under a new key, or erased. `Apart claims s` says that members that claim the
same thing are one member.
-/

namespace Ceo.Lib

variable {α β κ : Type}

structure Keyed (key : α → κ) where
  items : List α
  nodup : (items.map key).Nodup

namespace Keyed

variable {key : α → κ}

def empty : Keyed key := ⟨[], List.nodup_nil⟩

theorem eq_of_key {s : Keyed key} {a b : α} (ha : a ∈ s.items) (hb : b ∈ s.items)
    (h : key a = key b) : a = b :=
  List.inj_on_of_nodup_map s.nodup ha hb h

/-- Members that claim the same thing are one member. -/
def Apart (claims : α → β → Prop) (s : Keyed key) : Prop :=
  ∀ a ∈ s.items, ∀ b ∈ s.items, ∀ x, claims a x → claims b x → key a = key b

theorem apart_empty {claims : α → β → Prop} : Apart claims (empty : Keyed key) :=
  fun _ ha => by cases ha

variable [DecidableEq κ]

def find (s : Keyed key) (k : κ) : Option α := s.items.find? fun a => key a = k

/-- The member with the key of `a` becomes `a`. -/
def put (s : Keyed key) (a : α) : Keyed key where
  items := s.items.map fun b => if key b = key a then a else b
  nodup := by
    have same : (s.items.map fun b => if key b = key a then a else b).map key = s.items.map key := by
      rw [List.map_map]
      refine List.map_congr_left fun b _ => ?_
      by_cases h : key b = key a
      · rw [Function.comp_apply, if_pos h, h]
      · rw [Function.comp_apply, if_neg h]
    rw [same]
    exact s.nodup

/-- `a` comes in when its key is new. -/
def add (s : Keyed key) (a : α) : Keyed key :=
  if h : key a ∈ s.items.map key then s
  else
    { items := s.items ++ [a]
      nodup := by
        rw [List.map_append]
        exact List.nodup_append_comm.1 (List.nodup_cons.2 ⟨h, s.nodup⟩) }

/-- `a` takes the place of the member with its key, or comes in. -/
def set (s : Keyed key) (a : α) : Keyed key :=
  if key a ∈ s.items.map key then s.put a else s.add a

def erase (s : Keyed key) (k : κ) : Keyed key where
  items := s.items.filter fun a => key a ≠ k
  nodup := s.nodup.sublist (List.filter_sublist.map key)

/-- `f` rewrites the members that satisfy `p`, under their keys. -/
def update (s : Keyed key) (p : α → Bool) (f : α → α) (same : ∀ a, key (f a) = key a) : Keyed key where
  items := s.items.map fun a => if p a then f a else a
  nodup := by
    have keys : (s.items.map fun a => if p a then f a else a).map key = s.items.map key := by
      rw [List.map_map]
      refine List.map_congr_left fun a _ => ?_
      by_cases h : p a
      · rw [Function.comp_apply, if_pos h, same]
      · rw [Function.comp_apply, if_neg h]
    rw [keys]
    exact s.nodup

/-- `a` comes in when its key is new and it clashes with no member. -/
def insert (s : Keyed key) (clash : α → α → Bool) (a : α) : Option (Keyed key) :=
  if key a ∈ s.items.map key ∨ s.items.any (clash a) then none else some (s.add a)

variable {s : Keyed key} {a b : α}

theorem find_eq_some {k : κ} (h : s.find k = some a) : a ∈ s.items ∧ key a = k :=
  ⟨List.mem_of_find?_eq_some h, of_decide_eq_true (List.find?_some (p := fun a => decide (key a = k)) h)⟩

theorem mem_put (ha : a ∈ s.items) {a' : α} (h : key a' = key a) :
    b ∈ (s.put a').items ↔ b = a' ∨ b ∈ s.items ∧ key b ≠ key a' := by
  unfold put
  rw [List.mem_map]
  constructor
  · rintro ⟨c, hc, rfl⟩
    by_cases hk : key c = key a'
    · exact .inl (if_pos hk)
    · rw [if_neg hk]
      exact .inr ⟨hc, hk⟩
  · rintro (rfl | ⟨hb, hk⟩)
    · exact ⟨a, ha, if_pos h.symm⟩
    · exact ⟨b, hb, if_neg hk⟩

theorem mem_add (fresh : key a ∉ s.items.map key) :
    b ∈ (s.add a).items ↔ b = a ∨ b ∈ s.items := by
  unfold add
  rw [dif_neg fresh, List.mem_append, List.mem_singleton, or_comm]

theorem mem_set : b ∈ (s.set a).items ↔ b = a ∨ b ∈ s.items ∧ key b ≠ key a := by
  unfold set
  by_cases h : key a ∈ s.items.map key
  · obtain ⟨c, hc, hca⟩ := List.mem_map.1 h
    rw [if_pos h, mem_put hc hca.symm]
  · rw [if_neg h, mem_add h]
    refine or_congr_right ⟨fun hb => ⟨hb, fun hk => h ?_⟩, And.left⟩
    exact List.mem_map.2 ⟨b, hb, hk⟩

theorem length_put : (s.put a).items.length = s.items.length := List.length_map ..

theorem length_set : (s.set a).items.length ≤ s.items.length + 1 := by
  unfold set
  by_cases h : key a ∈ s.items.map key
  · rw [if_pos h, length_put]
    exact Nat.le_succ _
  · rw [if_neg h]
    unfold add
    rw [dif_neg h, List.length_append]
    exact Nat.le_refl _

theorem mem_erase {k : κ} : b ∈ (s.erase k).items ↔ b ∈ s.items ∧ key b ≠ k := by
  unfold erase
  rw [List.mem_filter, decide_eq_true_eq]

omit [DecidableEq κ] in
theorem mem_update {p : α → Bool} {f : α → α} (same : ∀ a, key (f a) = key a) :
    b ∈ (s.update p f same).items ↔ ∃ a ∈ s.items, (if p a then f a else a) = b :=
  List.mem_map

omit [DecidableEq κ] in
/-- What held of every member, and what the update keeps. -/
theorem of_mem_update {p : α → Bool} {f : α → α} (same : ∀ a, key (f a) = key a) {P : α → Prop}
    (keep : ∀ a, P a → P (f a)) (h : ∀ a ∈ s.items, P a) : ∀ b ∈ (s.update p f same).items, P b := by
  intro b hb
  obtain ⟨a, ha, rfl⟩ := (mem_update same).1 hb
  by_cases hp : p a
  · rw [if_pos hp]
    exact keep a (h a ha)
  · rw [if_neg hp]
    exact h a ha

omit [DecidableEq κ] in
/-- A member that has what the update keeps. -/
theorem exists_mem_update {p : α → Bool} {f : α → α} (same : ∀ a, key (f a) = key a) {P : α → Prop}
    (keep : ∀ a, P a → P (f a)) (h : ∃ a ∈ s.items, P a) : ∃ b ∈ (s.update p f same).items, P b := by
  obtain ⟨a, ha, hP⟩ := h
  refine ⟨_, (mem_update same).2 ⟨a, ha, rfl⟩, ?_⟩
  by_cases hp : p a
  · rw [if_pos hp]
    exact keep a hP
  · rw [if_neg hp]
    exact hP

/-- What comes in has a new key and clashes with no member. -/
theorem insert_eq_some {clash : α → α → Bool} {t : Keyed key} (h : s.insert clash a = some t) :
    key a ∉ s.items.map key ∧ (∀ b ∈ s.items, clash a b = false) ∧
      ∀ b, b ∈ t.items ↔ b = a ∨ b ∈ s.items := by
  unfold insert at h
  split at h
  · cases h
  next hnew =>
    obtain ⟨hkey, hclash⟩ := not_or.1 hnew
    cases h
    refine ⟨hkey, fun b hb => ?_, fun b => mem_add hkey⟩
    simp only [List.any_eq_true, not_exists, not_and] at hclash
    exact Bool.eq_false_iff.2 (hclash b hb)

/-- What comes in comes last. -/
theorem insert_items {clash : α → α → Bool} {t : Keyed key} (h : s.insert clash a = some t) :
    t.items = s.items ++ [a] := by
  have hkey := (insert_eq_some h).1
  unfold insert at h
  split at h
  · cases h
  · cases h
    unfold add
    rw [dif_neg hkey]

omit [DecidableEq κ] in
/-- An update leaves what it keeps out of. -/
theorem filter_update {p q : α → Bool} {f : α → α} (same : ∀ a, key (f a) = key a)
    (kind : ∀ a, q (f a) = q a) (out : ∀ a ∈ s.items, q a = true → p a = true → f a = a) :
    (s.update p f same).items.filter q = s.items.filter q := by
  unfold update
  dsimp only
  rw [List.filter_map]
  have hq : (q ∘ fun a => if p a then f a else a) = q := by
    funext a
    by_cases hp : p a
    · simp [hp, kind]
    · simp [hp]
  rw [hq]
  refine (List.map_congr_left fun a ha => ?_).trans (List.map_id _)
  obtain ⟨hmem, hqa⟩ := List.mem_filter.1 ha
  by_cases hp : p a
  · rw [if_pos hp, out a hmem hqa hp]
    rfl
  · rw [if_neg hp]
    rfl

/-! ### claims -/

variable {claims : α → β → Prop}

/-- What the replaced member did not claim, no other member does. -/
theorem Apart.put (h : Apart claims s) (ha : a ∈ s.items) {a' : α} (hk : key a' = key a)
    (new : ∀ x, claims a' x → claims a x ∨ ∀ b ∈ s.items, key b ≠ key a → ¬claims b x) :
    Apart claims (s.put a') := by
  have others {b : α} (hb : b ∈ s.items) (hne : key b ≠ key a') {x : β} (hx : claims a' x)
      (hbx : claims b x) : False := by
    rcases new x hx with hold | hnew
    · exact hne ((h b hb a ha x hbx hold).trans hk.symm)
    · exact hnew b hb (hk ▸ hne) hbx
  intro b hb c hc x hbx hcx
  rcases (mem_put ha hk).1 hb with rfl | ⟨hbs, hbk⟩ <;>
    rcases (mem_put ha hk).1 hc with rfl | ⟨hcs, hck⟩
  · rfl
  · exact (others hcs hck hbx hcx).elim
  · exact (others hbs hbk hcx hbx).elim
  · exact h b hbs c hcs x hbx hcx

theorem Apart.add (h : Apart claims s) (fresh : key a ∉ s.items.map key)
    (new : ∀ x, claims a x → ∀ b ∈ s.items, ¬claims b x) : Apart claims (s.add a) := by
  intro b hb c hc x hbx hcx
  rcases (mem_add fresh).1 hb with rfl | hbs <;> rcases (mem_add fresh).1 hc with rfl | hcs
  · rfl
  · exact (new x hbx c hcs hcx).elim
  · exact (new x hcx b hbs hbx).elim
  · exact h b hbs c hcs x hbx hcx

theorem Apart.erase (h : Apart claims s) (k : κ) : Apart claims (s.erase k) :=
  fun b hb c hc => h b (mem_erase.1 hb).1 c (mem_erase.1 hc).1

end Keyed

end Ceo.Lib
