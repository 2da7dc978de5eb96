import Mathlib.Data.List.Infix
import Mathlib.Data.List.TakeWhile

/-!
# Replacing every match of a pattern

`replaceAll len r` replaces each match of a pattern, found from the left, by
`r`; the pattern is the function `len` that gives the length of its match at
the start of a text, `0` where it does not match. A `Shape` is the part of a
pattern that has a fixed length. The lemmas say when a replacement leaves a
text alone, and which shapes can occur in what it returns.
-/

namespace Ceo.Lib.Substitute

variable {α : Type}

/-! ### shapes -/

/-- One class of letters for each place. -/
abbrev Shape (α : Type) := List (α → Bool)

/-- The text starts with the shape. -/
def Fits : Shape α → List α → Prop
  | [], _ => True
  | _ :: _, [] => False
  | k :: ks, c :: cs => k c = true ∧ Fits ks cs

instance (ks : Shape α) (t : List α) : Decidable (Fits ks t) :=
  match ks, t with
  | [], _ => isTrue trivial
  | _ :: _, [] => isFalse id
  | k :: ks, c :: cs =>
    have := instDecidableFits ks cs
    inferInstanceAs (Decidable (k c = true ∧ Fits ks cs))

/-- A letter of the text has a place in the shape and is not in its class. -/
def clash : Shape α → List α → Bool
  | k :: ks, c :: cs => !k c || clash ks cs
  | _, _ => false

theorem not_fits_of_clash {ks : Shape α} {t : List α} (h : clash ks t = true) (y : List α) :
    ¬Fits ks (t ++ y) := by
  induction ks generalizing t with
  | nil => cases h
  | cons k ks ih =>
    cases t with
    | nil => cases h
    | cons c t =>
      rintro ⟨hc, hrest⟩
      simp only [clash, hc, Bool.not_true, Bool.false_or] at h
      exact ih h hrest

theorem fits_append {ks : Shape α} {t : List α} (h : Fits ks t) (y : List α) : Fits ks (t ++ y) := by
  induction ks generalizing t with
  | nil => trivial
  | cons k ks ih =>
    cases t with
    | nil => cases h
    | cons c t => exact ⟨h.1, ih h.2⟩

/-- A shape that no class of admits the letter does not reach past it. -/
theorem fits_before {ks : Shape α} {t y : List α} {z : α} (hz : ∀ k ∈ ks, k z = false)
    (h : Fits ks (t ++ z :: y)) : Fits ks t := by
  induction ks generalizing t with
  | nil => trivial
  | cons k ks ih =>
    cases t with
    | nil =>
      have hk : k z = true := h.1
      rw [hz k (List.mem_cons_self ..)] at hk
      cases hk
    | cons c t => exact ⟨h.1, ih (fun k hk => hz k (List.mem_cons_of_mem _ hk)) h.2⟩

theorem fits_length {ks : Shape α} {t : List α} (h : Fits ks t) : ks.length ≤ t.length := by
  induction ks generalizing t with
  | nil => exact Nat.zero_le _
  | cons k ks ih =>
    cases t with
    | nil => cases h
    | cons c t => exact Nat.succ_le_succ (ih h.2)

/-- Where the shape occurs in the text, what starts there is in order. -/
def OnlyAs (ks : Shape α) (ok : List α → Prop) (t : List α) : Prop :=
  ∀ s, s <:+ t → Fits ks s → ok s

/-- The shape does not occur in the text. -/
abbrev Absent (ks : Shape α) (t : List α) : Prop := OnlyAs ks (fun _ => False) t

theorem suffix_append_cases {s u v : List α} (h : s <:+ u ++ v) :
    s <:+ v ∨ ∃ w, w ≠ [] ∧ w <:+ u ∧ s = w ++ v := by
  obtain ⟨p, hp⟩ := h
  rcases List.append_eq_append_iff.1 hp with ⟨w, hu, hs⟩ | ⟨w, -, hv⟩
  · cases w with
    | nil => exact .inl (hs ▸ List.suffix_refl _)
    | cons c w => exact .inr ⟨c :: w, List.cons_ne_nil _ _, ⟨p, hu.symm⟩, hs⟩
  · exact .inl ⟨w, hv.symm⟩

/-! ### replacing -/

section replaceAll

variable (len : List α → Nat) (r : List α)

/-- With letters of a match still to be passed over. -/
def passing : Nat → List α → List α
  | _, [] => []
  | k + 1, _ :: cs => passing k cs
  | 0, c :: cs =>
    match len (c :: cs) with
    | 0 => c :: passing 0 cs
    | n + 1 => r ++ passing n cs

def replaceAll (t : List α) : List α := passing len r 0 t

theorem passing_eq (k : Nat) (t : List α) : passing len r k t = replaceAll len r (t.drop k) := by
  induction t generalizing k with
  | nil =>
    rw [List.drop_nil]
    cases k <;> rfl
  | cons c cs ih =>
    cases k with
    | zero => rfl
    | succ k => exact ih k

@[simp] theorem replaceAll_nil : replaceAll len r [] = [] := rfl

variable {len r}

theorem replaceAll_none {c : α} {cs : List α} (h : len (c :: cs) = 0) :
    replaceAll len r (c :: cs) = c :: replaceAll len r cs := by
  unfold replaceAll
  rw [passing, h]

theorem replaceAll_match {c : α} {cs : List α} (h : 0 < len (c :: cs)) :
    replaceAll len r (c :: cs) = r ++ replaceAll len r ((c :: cs).drop (len (c :: cs))) := by
  obtain ⟨n, hn⟩ := Nat.exists_eq_add_of_lt h
  rw [Nat.zero_add] at hn
  rw [hn]
  unfold replaceAll
  rw [passing, hn]
  exact congrArg (r ++ ·) (passing_eq len r n cs)

/-- Along the way a replacement takes through a text. -/
theorem replaceAll_induct (len : List α → Nat) {P : List α → Prop} (nil : P [])
    (none : ∀ c cs, len (c :: cs) = 0 → P cs → P (c :: cs))
    (hit : ∀ c cs, 0 < len (c :: cs) → P ((c :: cs).drop (len (c :: cs))) → P (c :: cs))
    (t : List α) : P t := by
  induction hn : t.length using Nat.strong_induction_on generalizing t with
  | _ n ih =>
    cases t with
    | nil => exact nil
    | cons c cs =>
      rcases Nat.eq_zero_or_pos (len (c :: cs)) with h | h
      · exact none c cs h (ih cs.length (by simp [← hn]) cs rfl)
      · refine hit c cs h (ih _ ?_ _ rfl)
        rw [← hn, List.length_drop, List.length_cons]
        omega

/-- A text in which each match is what it is replaced by stays. -/
theorem replaceAll_self {t : List α}
    (h : ∀ s, s <:+ t → 0 < len s → s.take (len s) = r) : replaceAll len r t = t := by
  induction t using replaceAll_induct len with
  | nil => rfl
  | none c cs hc ih =>
    rw [replaceAll_none hc, ih fun s hs => h s (hs.trans (List.suffix_cons _ _))]
  | hit c cs hc ih =>
    rw [replaceAll_match hc, ih fun s hs => h s (hs.trans (List.drop_suffix _ _))]
    have htake := h (c :: cs) (List.suffix_refl _) hc
    calc r ++ (c :: cs).drop (len (c :: cs))
        = (c :: cs).take (len (c :: cs)) ++ (c :: cs).drop (len (c :: cs)) := by rw [htake]
      _ = c :: cs := List.take_append_drop _ _

/-- With one more letter behind such a text, a match that it ends may take the letter along. -/
theorem replaceAll_self_or {t : List α} {z : α}
    (h : ∀ s, s <:+ t → 0 < len (s ++ [z]) →
      (s ++ [z]).take (len (s ++ [z])) = r ∨ s = r ∧ len (s ++ [z]) = s.length + 1) :
    replaceAll len r (t ++ [z]) = t ++ [z] ∨ replaceAll len r (t ++ [z]) = t := by
  generalize hx : t ++ [z] = x
  induction x using replaceAll_induct len generalizing t with
  | nil => simp at hx
  | none c cs hc ih =>
    rw [replaceAll_none hc]
    cases t with
    | nil =>
      obtain ⟨rfl, rfl⟩ := List.cons.inj hx
      exact .inl rfl
    | cons d t =>
      obtain ⟨rfl, hcs⟩ := List.cons.inj hx
      rcases ih (fun s hs => h s (hs.trans (List.suffix_cons _ _))) hcs with h | h
      · exact .inl (by rw [h])
      · exact .inr (by rw [h])
  | hit c cs hc ih =>
    rw [replaceAll_match hc]
    rw [← hx] at hc ih ⊢
    rcases h t (List.suffix_refl _) hc with htake | ⟨rfl, hlen⟩
    · by_cases hle : len (t ++ [z]) ≤ t.length
      · have hdrop := @List.drop_append_of_le_length _ t [z] _ hle
        have hr : t.take (len (t ++ [z])) = r := by
          rw [← htake, List.take_append_of_le_length hle]
        rcases ih (fun s hs => h s (hs.trans (List.drop_suffix _ _))) hdrop.symm with hd | hd
        · left
          calc r ++ replaceAll len r ((t ++ [z]).drop (len (t ++ [z])))
              = (t ++ [z]).take (len (t ++ [z])) ++ (t ++ [z]).drop (len (t ++ [z])) := by
                rw [hd, htake]
            _ = t ++ [z] := List.take_append_drop _ _
        · right
          rw [hd, ← hr, List.take_append_drop]
      · have hall : (t ++ [z]).length ≤ len (t ++ [z]) := by
          rw [List.length_append, List.length_singleton]
          omega
        left
        rw [List.drop_eq_nil_of_le hall, replaceAll_nil, List.append_nil, ← htake,
          List.take_of_length_le hall]
    · right
      rw [List.drop_eq_nil_of_le (by simp [hlen]), replaceAll_nil, List.append_nil]

theorem replaceAll_ne_nil (hr : r ≠ []) {t : List α} (ht : t ≠ []) : replaceAll len r t ≠ [] := by
  cases t with
  | nil => exact absurd rfl ht
  | cons c cs =>
    rcases Nat.eq_zero_or_pos (len (c :: cs)) with h | h
    · rw [replaceAll_none h]
      exact List.cons_ne_nil _ _
    · rw [replaceAll_match h]
      exact fun hnil => hr (List.append_eq_nil_iff.1 hnil).1

/-- The last letter is one of the text or of the replacement. -/
theorem replaceAll_getLast (hr : r ≠ []) {t : List α} {c : α}
    (h : (replaceAll len r t).getLast? = some c) : t.getLast? = some c ∨ r.getLast? = some c := by
  induction t using replaceAll_induct len with
  | nil => exact .inl h
  | none d cs hd ih =>
    rw [replaceAll_none hd, List.getLast?_cons] at h
    rw [List.getLast?_cons]
    cases hcs : cs.getLast? with
    | none =>
      obtain rfl := List.getLast?_eq_none_iff.1 hcs
      exact .inl h
    | some e =>
      have hne : replaceAll len r cs ≠ [] := replaceAll_ne_nil hr fun hnil => by
        rw [hnil] at hcs
        cases hcs
      rw [List.getLast?_eq_some_getLast hne] at h ih
      rw [hcs] at ih
      exact ih h
  | hit d cs hd ih =>
    rw [replaceAll_match hd, List.getLast?_append] at h
    cases hrest : (replaceAll len r ((d :: cs).drop (len (d :: cs)))).getLast? with
    | none =>
      rw [hrest] at h
      exact .inr h
    | some e =>
      rw [hrest] at h ih
      rcases ih h with h | h
      · left
        obtain ⟨p, hp⟩ := List.drop_suffix (len (d :: cs)) (d :: cs)
        rw [← hp, List.getLast?_append, h]
        rfl
      · exact .inr h

/-- What is put in starts no occurrence of the shape after its first letter, and ends none that
starts before it. -/
structure Foreign (len : List α → Nat) (r : List α) (ks : Shape α) : Prop where
  inside : ∀ i, 0 < i → i < r.length → clash ks (r.drop i) = true
  across : ∀ j, 0 < j → j < ks.length →
    clash (ks.drop j) r = true ∨ ∀ s, 0 < len s → Fits (ks.drop j) s

variable {ks : Shape α}

/-- A later part of a shape is found only where the text had it. -/
theorem Foreign.fits {j : Nat} {t : List α} (F : Foreign len r ks) (hj : 0 < j)
    (h : Fits (ks.drop j) (replaceAll len r t)) : Fits (ks.drop j) t := by
  induction t using replaceAll_induct len generalizing j with
  | nil => exact h
  | none c cs hc ih =>
    rw [replaceAll_none hc] at h
    cases hk : ks.drop j with
    | nil => trivial
    | cons k rest =>
      have hrest : ks.drop (j + 1) = rest := by
        rw [← List.drop_drop, hk]
        rfl
      rw [hk] at h
      exact ⟨h.1, hrest ▸ ih (Nat.succ_pos j) (hrest ▸ h.2)⟩
  | hit c cs hc _ =>
    rw [replaceAll_match hc] at h
    by_cases hlen : j < ks.length
    · rcases F.across j hj hlen with hclash | hall
      · exact absurd h (not_fits_of_clash hclash _)
      · exact hall _ hc
    · rw [List.drop_eq_nil_of_le (Nat.le_of_not_lt hlen)]
      trivial

/-- What occurs after a replacement: at a place it left, or at the start of what it put in. -/
theorem Foreign.onlyAs {ok : List α → Prop} {t : List α} (F : Foreign len r ks)
    (kept : ∀ s, s <:+ t → len s = 0 → Fits ks s → ok (replaceAll len r s))
    (made : ∀ s, s <:+ t → 0 < len s → Fits ks (replaceAll len r s) → ok (replaceAll len r s)) :
    OnlyAs ks ok (replaceAll len r t) := by
  induction t using replaceAll_induct len with
  | nil =>
    intro s hs hfits
    obtain rfl := List.suffix_nil.1 hs
    rcases Nat.eq_zero_or_pos (len []) with h | h
    · exact kept [] (List.suffix_refl _) h hfits
    · exact made [] (List.suffix_refl _) h hfits
  | none c cs hc ih =>
    intro s hs hfits
    rw [replaceAll_none hc] at hs
    rcases List.suffix_cons_iff.1 hs with rfl | hs
    · rw [← replaceAll_none hc] at hfits ⊢
      refine kept (c :: cs) (List.suffix_refl _) hc ?_
      rw [replaceAll_none hc] at hfits
      cases ks with
      | nil => trivial
      | cons k rest => exact ⟨hfits.1, F.fits (j := 1) Nat.one_pos hfits.2⟩
    · exact ih (fun s hs => kept s (hs.trans (List.suffix_cons _ _)))
        (fun s hs => made s (hs.trans (List.suffix_cons _ _))) s hs hfits
  | hit c cs hc ih =>
    intro s hs hfits
    rw [replaceAll_match hc] at hs
    rcases suffix_append_cases hs with hs | ⟨w, hne, hw, rfl⟩
    · exact ih (fun s hs => kept s (hs.trans (List.drop_suffix _ _)))
        (fun s hs => made s (hs.trans (List.drop_suffix _ _))) s hs hfits
    · obtain ⟨p, hp⟩ := hw
      cases p with
      | nil =>
        obtain rfl : w = r := hp
        rw [← replaceAll_match hc] at hfits ⊢
        exact made (c :: cs) (List.suffix_refl _) hc hfits
      | cons b p =>
        have hlen : 0 < w.length := List.length_pos_iff.2 hne
        have hdrop : r.drop (b :: p).length = w := by rw [← hp, List.drop_left]
        have hclash := F.inside (b :: p).length (Nat.succ_pos _) (by
          rw [← hp, List.length_append]
          omega)
        rw [hdrop] at hclash
        exact absurd hfits (not_fits_of_clash hclash _)

/-- A shape the text does not have, and that nothing put in starts, is not there afterwards. -/
theorem Foreign.absent {t : List α} (F : Foreign len r ks) (start : clash ks r = true)
    (kept : ∀ s, s <:+ t → len s = 0 → ¬Fits ks s) (hne : ks ≠ []) :
    Absent ks (replaceAll len r t) := by
  refine F.onlyAs kept fun s _ hs hfits => ?_
  cases s with
  | nil =>
    cases ks with
    | nil => exact hne rfl
    | cons k ks => cases hfits
  | cons c cs =>
    rw [replaceAll_match hs] at hfits
    exact not_fits_of_clash start _ hfits

/-- Where nothing matches, the text stays. -/
theorem replaceAll_append {u : List α} (h : ∀ i, i < u.length → ∀ y, len (u.drop i ++ y) = 0)
    (y : List α) : replaceAll len r (u ++ y) = u ++ replaceAll len r y := by
  induction u with
  | nil => rfl
  | cons c u ih =>
    have hc : len (c :: (u ++ y)) = 0 := h 0 (Nat.succ_pos _) y
    rw [List.cons_append, replaceAll_none hc, ih fun i hi => h (i + 1) (Nat.succ_lt_succ hi)]
    rfl

end replaceAll

/-! ### patterns -/

/-- A head of fixed shape, runs of one or more letters of a class each, and a tail. The classes of
neighbours have no letter in common, so each run takes all it can. -/
structure Runs (α : Type) where
  head : Shape α
  runs : List (α → Bool)
  tail : Shape α

def runsRest (tail : Shape α) : List (α → Bool) → List α → Option (List α)
  | [], t => if Fits tail t then some (t.drop tail.length) else none
  | k :: ks, t => if t.takeWhile k = [] then none else runsRest tail ks (t.dropWhile k)

/-- What stands after the match at the start of the text. -/
def Runs.rest (p : Runs α) (t : List α) : Option (List α) :=
  if Fits p.head t then runsRest p.tail p.runs (t.drop p.head.length) else none

def Runs.len (p : Runs α) (t : List α) : Nat :=
  match p.rest t with
  | some rest => t.length - rest.length
  | none => 0

section patterns

variable {p : Runs α} {t : List α}

theorem runsRest_suffix {tail : Shape α} {ks : List (α → Bool)} {t u : List α}
    (h : runsRest tail ks t = some u) : u <:+ t := by
  induction ks generalizing t with
  | nil =>
    unfold runsRest at h
    split_ifs at h
    rw [← Option.some.inj h]
    exact List.drop_suffix _ _
  | cons k ks ih =>
    unfold runsRest at h
    split_ifs at h
    exact (ih h).trans (List.dropWhile_suffix _)

theorem Runs.rest_of_len (h : 0 < p.len t) : ∃ u, p.rest t = some u ∧ t.drop (p.len t) = u := by
  unfold len at h ⊢
  cases hu : p.rest t with
  | none =>
    rw [hu] at h
    exact absurd h (Nat.lt_irrefl 0)
  | some u =>
    refine ⟨u, rfl, ?_⟩
    have hsuffix : u <:+ t := by
      unfold rest at hu
      split_ifs at hu
      exact (runsRest_suffix hu).trans (List.drop_suffix _ _)
    exact (List.suffix_iff_eq_drop.1 hsuffix).symm

theorem Runs.rest_of_len_zero (hne : p.head ≠ []) (h : p.len t = 0) : p.rest t = none := by
  unfold len at h
  cases hu : p.rest t with
  | none => rfl
  | some u =>
    rw [hu] at h
    unfold rest at hu
    split_ifs at hu with hfits
    have hlen := (runsRest_suffix hu).length_le
    have hhead := fits_length hfits
    have hpos : 0 < p.head.length := List.length_pos_iff.2 hne
    rw [List.length_drop] at hlen
    simp only at h
    omega

theorem Runs.fits_head (h : 0 < p.len t) : Fits p.head t := by
  obtain ⟨u, hu, -⟩ := rest_of_len h
  unfold rest at hu
  split_ifs at hu with hfits
  exact hfits

theorem Runs.len_of_clash (h : clash p.head t = true) (y : List α) : p.len (t ++ y) = 0 := by
  unfold len rest
  rw [if_neg (not_fits_of_clash h y)]

theorem fits_shape_append {ks ls : Shape α} {t : List α} :
    Fits (ks ++ ls) t ↔ Fits ks t ∧ Fits ls (t.drop ks.length) := by
  induction ks generalizing t with
  | nil => exact ⟨fun h => ⟨trivial, h⟩, fun h => h.2⟩
  | cons k ks ih =>
    cases t with
    | nil => exact ⟨fun h => h.elim, fun h => h.1.elim⟩
    | cons c t =>
      constructor
      · rintro ⟨hc, h⟩
        exact ⟨⟨hc, (ih.1 h).1⟩, (ih.1 h).2⟩
      · rintro ⟨⟨hc, h⟩, hl⟩
        exact ⟨hc, ih.2 ⟨h, hl⟩⟩

/-- A match has its head and a letter of the first run. -/
theorem Runs.fits_of_len {k : α → Bool} {ks : List (α → Bool)} (hruns : p.runs = k :: ks)
    (h : 0 < p.len t) : Fits (p.head ++ [k]) t := by
  obtain ⟨u, hu, -⟩ := Runs.rest_of_len h
  unfold Runs.rest at hu
  split_ifs at hu with hfits
  refine fits_shape_append.2 ⟨hfits, ?_⟩
  rw [hruns, runsRest] at hu
  split_ifs at hu with hrun
  cases hd : t.drop p.head.length with
  | nil =>
    rw [hd] at hrun
    exact absurd rfl hrun
  | cons c cs =>
    rw [hd] at hrun
    refine ⟨?_, trivial⟩
    by_contra hc
    exact hrun (List.takeWhile_cons_of_neg hc)

/-- A head with one letter of a run after it is a match. -/
theorem Runs.not_fits_of_len {k : α → Bool} (hruns : p.runs = [k]) (htail : p.tail = [])
    (hne : p.head ≠ []) (h : p.len t = 0) : ¬Fits (p.head ++ [k]) t := by
  intro hfits
  obtain ⟨hhead, hk⟩ := fits_shape_append.1 hfits
  have hrest := rest_of_len_zero hne h
  unfold rest at hrest
  rw [if_pos hhead, hruns, htail] at hrest
  cases hd : t.drop p.head.length with
  | nil =>
    rw [hd] at hk
    exact hk
  | cons c cs =>
    rw [hd] at hk hrest
    simp [runsRest, List.takeWhile_cons_of_pos hk.1, Fits] at hrest

theorem Foreign.of_runs {r : List α} {body : Shape α} {k : α → Bool}
    (inside : ∀ i, i < r.length → 0 < i → clash (body ++ [k]) (r.drop i) = true)
    (across : ∀ j, j < body.length → 0 < j → clash ((body ++ [k]).drop j) r = true)
    (last : clash [k] r = true ∨ ∀ s, 0 < p.len s → Fits [k] s) : Foreign p.len r (body ++ [k]) where
  inside i hi hlt := inside i hlt hi
  across j hj hlt := by
    rcases Nat.lt_or_ge j body.length with hb | hb
    · exact .inl (across j hb hj)
    · have hj : j = body.length := by
        rw [List.length_append, List.length_singleton] at hlt
        omega
      rw [hj, List.drop_left]
      exact last

end patterns

/-! ### markers -/

section markers

variable {space : α → Bool} {letters : Shape α} {form : List α}

/-- What starts here is the form, up to a space or the end of the text. -/
def InForm (space : α → Bool) (form s : List α) : Prop :=
  ∃ y, s = form ++ y ∧ ∀ c ∈ y.head?, space c = true

/-- The pattern of a marker: its letters, space, and a run without space. -/
def marker (space : α → Bool) (letters : Shape α) : Runs α :=
  ⟨letters, [space, fun c => !space c], []⟩

theorem rest_marker {t u : List α} (h : (marker space letters).rest t = some u) :
    ∀ c ∈ u.head?, space c = true := by
  unfold Runs.rest at h
  split_ifs at h
  simp only [marker, runsRest, Fits, if_true, List.length_nil, List.drop_zero] at h
  split_ifs at h
  obtain rfl := Option.some.inj h
  intro c hc
  have hnot := List.head?_dropWhile_not (fun c => !space c)
    ((t.drop letters.length).dropWhile space)
  rw [Option.mem_def.1 hc] at hnot
  simpa using hnot

/-- After a marker with space behind it comes a run, unless the text ends in space. -/
theorem getLast_marker {t : List α} (hne : letters ≠ []) (h : (marker space letters).len t = 0)
    (hfits : Fits (letters ++ [space]) t) : ∃ c, t.getLast? = some c ∧ space c = true := by
  obtain ⟨hhead, hspace⟩ := fits_shape_append.1 hfits
  have hrest := Runs.rest_of_len_zero hne h
  unfold Runs.rest at hrest
  rw [if_pos (show Fits (marker space letters).head t from hhead)] at hrest
  cases hd : t.drop letters.length with
  | nil =>
    rw [hd] at hspace
    exact hspace.elim
  | cons c cs =>
    rw [hd] at hspace
    rw [show t.drop (marker space letters).head.length = c :: cs from hd] at hrest
    have hrun : (c :: cs).dropWhile space = [] := by
      by_contra hcon
      have hsolid := List.head_dropWhile_not space hcon
      simp only [marker, runsRest, Fits, List.takeWhile_cons_of_pos hspace.1] at hrest
      cases hdrop : (c :: cs).dropWhile space with
      | nil => exact hcon hdrop
      | cons d ds =>
        simp only [hdrop, List.head_cons] at hsolid hrest
        simp [List.takeWhile_cons_of_pos, hsolid] at hrest
    have hall := List.dropWhile_eq_nil_iff.1 hrun
    have hlast : t.getLast? = (c :: cs).getLast? := by
      rw [← List.take_append_drop letters.length t, hd, List.getLast?_append]
      rw [List.getLast?_eq_some_getLast (List.cons_ne_nil _ _)]
      rfl
    refine ⟨(c :: cs).getLast (List.cons_ne_nil _ _), ?_, hall _ (List.getLast_mem _)⟩
    rw [hlast, List.getLast?_eq_some_getLast (List.cons_ne_nil _ _)]

/-- A pass that leaves the form alone leaves what follows a space alone at its start. -/
theorem head_replaceAll {len : List α → Nat} {r u : List α}
    (solid : ∀ c cs, space c = true → len (c :: cs) = 0) (h : ∀ c ∈ u.head?, space c = true) :
    ∀ c ∈ (replaceAll len r u).head?, space c = true := by
  cases u with
  | nil => exact h
  | cons d ds =>
    have hd : space d = true := h d rfl
    rw [replaceAll_none (solid d ds hd)]
    exact h

theorem marker_solid (hne : letters ≠ []) (solid : ∀ k ∈ letters, ∀ c, space c = true → k c = false)
    (c : α) (cs : List α) (hc : space c = true) : (marker space letters).len (c :: cs) = 0 := by
  refine Nat.eq_zero_of_not_pos fun hpos => ?_
  have hfits : Fits letters (c :: cs) := Runs.fits_head hpos
  cases letters with
  | nil => exact hne rfl
  | cons k ks =>
    have hk := hfits.1
    rw [solid k (List.mem_cons_self ..) c hc] at hk
    cases hk

/-- Once its matches are replaced, a marker with space behind it is in the form. -/
theorem inForm_marker {t : List α} (hne : letters ≠ [])
    (solid : ∀ k ∈ letters, ∀ c, space c = true → k c = false)
    (F : Foreign (marker space letters).len form (letters ++ [space]))
    (hlast : ∀ c, t.getLast? = some c → space c = false) :
    OnlyAs (letters ++ [space]) (InForm space form)
      (replaceAll (marker space letters).len form t) := by
  refine F.onlyAs (fun s hs hlen hfits => ?_) fun s _ hlen _ => ?_
  · obtain ⟨c, hc, hspace⟩ := getLast_marker hne hlen hfits
    obtain ⟨q, rfl⟩ := hs
    rw [hlast c (by rw [List.getLast?_append, hc]; rfl)] at hspace
    cases hspace
  · obtain ⟨u, hu, hdrop⟩ := Runs.rest_of_len hlen
    cases s with
    | nil =>
      have hfits : Fits letters [] := Runs.fits_head hlen
      cases letters with
      | nil => exact absurd rfl hne
      | cons k ks => exact hfits.elim
    | cons c cs =>
      rw [replaceAll_match hlen, hdrop]
      exact ⟨_, rfl, head_replaceAll (marker_solid hne solid) (rest_marker hu)⟩

/-- A pass over other patterns keeps a marker in the form. -/
theorem Foreign.inForm {ks : Shape α} {p : Runs α} {r t : List α} (F : Foreign p.len r ks)
    (start : clash ks r = true) (hne : ks ≠ [])
    (apart : ∀ i, i < form.length → clash p.head (form.drop i) = true)
    (solid : ∀ c cs, space c = true → p.len (c :: cs) = 0)
    (h : OnlyAs ks (InForm space form) t) :
    OnlyAs ks (InForm space form) (replaceAll p.len r t) := by
  refine F.onlyAs (fun s hs _ hfits => ?_) fun s _ hlen hfits => ?_
  · obtain ⟨y, rfl, hy⟩ := h s hs hfits
    rw [replaceAll_append fun i hi => Runs.len_of_clash (apart i hi)]
    exact ⟨_, rfl, head_replaceAll solid hy⟩
  · cases s with
    | nil =>
      rw [replaceAll_nil] at hfits
      cases ks with
      | nil => exact absurd rfl hne
      | cons k ks => exact hfits.elim
    | cons c cs =>
      rw [replaceAll_match hlen] at hfits
      exact absurd hfits (not_fits_of_clash start _)

/-- The form is a match of the marker itself: its letters, spaces, and a run without space. -/
structure FormOf (space : α → Bool) (letters : Shape α) (form : List α) : Prop where
  fits : Fits letters form
  split : ∃ spaces run, form.drop letters.length = spaces ++ run ∧ spaces ≠ [] ∧ run ≠ [] ∧
    (∀ c ∈ spaces, space c = true) ∧ ∀ c ∈ run, space c = false

/-- Runs of a class and of the others. -/
theorem span_append {k : α → Bool} {w u : List α} (hw : ∀ c ∈ w, k c = true)
    (hu : ∀ c ∈ u.head?, k c = false) :
    (w ++ u).takeWhile k = w ∧ (w ++ u).dropWhile k = u := by
  rw [List.takeWhile_append_of_pos hw, List.dropWhile_append_of_pos hw]
  cases u with
  | nil => simp
  | cons d ds =>
    have hd : k d = false := hu d rfl
    rw [List.takeWhile_cons_of_neg (by simp [hd]), List.dropWhile_cons_of_neg (by simp [hd])]
    simp

theorem FormOf.rest {v u : List α} (h : FormOf space letters form) (hv : ∀ c ∈ v, space c = false)
    (hu : ∀ c ∈ u.head?, space c = true) : (marker space letters).rest (form ++ (v ++ u)) = some u := by
  obtain ⟨spaces, run, hsplit, hspaces, hrun, hall, hsolid⟩ := h.split
  have hlen := fits_length h.fits
  have hdrop : (form ++ (v ++ u)).drop letters.length = spaces ++ (run ++ v ++ u) := by
    rw [List.drop_append_of_le_length hlen, hsplit]
    simp
  have hfirst := @span_append _ space spaces (run ++ v ++ u) hall (by
    intro c hc
    cases run with
    | nil => exact absurd rfl hrun
    | cons d ds =>
      obtain rfl : d = c := Option.some.inj hc
      exact hsolid d (List.mem_cons_self ..))
  have hsecond := @span_append _ (fun c => !space c) (run ++ v) u
    (fun c hc => by
      rcases List.mem_append.1 hc with hc | hc
      · simp [hsolid c hc]
      · simp [hv c hc])
    (fun c hc => by simp [hu c hc])
  unfold Runs.rest
  rw [if_pos (show Fits (marker space letters).head (form ++ (v ++ u)) from fits_append h.fits _)]
  simp only [marker, runsRest, Fits, if_true, List.length_nil, List.drop_zero, hdrop, hfirst,
    hsecond, if_neg hspaces]
  rw [if_neg (by simp [hrun])]

theorem FormOf.len {v u : List α} (h : FormOf space letters form) (hv : ∀ c ∈ v, space c = false)
    (hu : ∀ c ∈ u.head?, space c = true) :
    (marker space letters).len (form ++ (v ++ u)) = form.length + v.length := by
  unfold Runs.len
  rw [h.rest hv hu]
  simp only [List.length_append]
  omega

/-- A text with its markers in the form stays. -/
theorem FormOf.self {t : List α} (h : FormOf space letters form)
    (only : OnlyAs (letters ++ [space]) (InForm space form) t) :
    replaceAll (marker space letters).len form t = t := by
  refine replaceAll_self fun s hs hlen => ?_
  obtain ⟨y, rfl, hy⟩ := only s hs (Runs.fits_of_len (p := marker space letters) rfl hlen)
  have hexact := h.len (v := []) (by simp) hy
  rw [List.nil_append, List.length_nil, Nat.add_zero] at hexact
  rw [hexact, List.take_left]

/-- With one more letter, no space, behind a text with its markers in the form: that letter goes
if the last marker is at the end. -/
theorem FormOf.self_or {t : List α} {z : α} (h : FormOf space letters form) (hz : space z = false)
    (apart : ∀ k ∈ letters, k z = false)
    (only : OnlyAs (letters ++ [space]) (InForm space form) t) :
    replaceAll (marker space letters).len form (t ++ [z]) = t ++ [z] ∨
      replaceAll (marker space letters).len form (t ++ [z]) = t := by
  have hshape : ∀ k ∈ letters ++ [space], k z = false := by
    intro k hk
    rcases List.mem_append.1 hk with hk | hk
    · exact apart k hk
    · rwa [List.mem_singleton.1 hk]
  refine replaceAll_self_or fun s hs hlen => ?_
  have hfits := fits_before hshape (y := []) (Runs.fits_of_len (p := marker space letters) rfl hlen)
  obtain ⟨y, rfl, hy⟩ := only s hs hfits
  cases y with
  | nil =>
    have hexact := h.len (v := [z]) (u := []) (by simpa using hz) (by simp)
    right
    rw [List.append_nil] at hexact ⊢
    exact ⟨rfl, hexact⟩
  | cons c cs =>
    have hexact := h.len (v := []) (u := c :: cs ++ [z]) (by simp) hy
    left
    rw [List.nil_append, List.length_nil, Nat.add_zero] at hexact
    rw [List.append_assoc, hexact, List.take_left]

end markers

end Ceo.Lib.Substitute
