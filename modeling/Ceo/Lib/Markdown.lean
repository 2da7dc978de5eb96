import Mathlib.Data.List.TakeWhile
import Mathlib.Data.List.Infix
import Mathlib.Data.List.DropRight

/-!
# Sections and items of a text

What regular expressions find in a Markdown text: the first heading of a
title, the text from there to the next heading or fence, and the items of a
list. Each search is a function on the characters; the lemmas say what a
search finds in a text put together from parts.
-/

namespace Ceo.Lib.Markdown

abbrev Text := List Char

/-! ### ends of lines -/

/-- What stands after `\r?\n`. -/
def afterNewline : Text → Option Text
  | '\n' :: rest => some rest
  | '\r' :: '\n' :: rest => some rest
  | _ => none

theorem afterNewline_append (k z : Text) :
    afterNewline (k ++ '\n' :: z) = (afterNewline (k ++ ['\n'])).map (· ++ z) := by
  rcases k with _ | ⟨a, _ | ⟨b, k⟩⟩
  · rfl
  · by_cases ha : a = '\n'
    · subst ha
      rfl
    · by_cases hr : a = '\r'
      · subst hr
        rfl
      · simp [afterNewline, ha, hr]
  · by_cases ha : a = '\n'
    · subst ha
      simp [afterNewline]
    · by_cases hr : a = '\r'
      · subst hr
        by_cases hb : b = '\n'
        · subst hb
          simp [afterNewline]
        · simp [afterNewline, hb]
      · simp [afterNewline, ha, hr]

/-- A line starts here, and starts with the marker. -/
def startsLine (marker t : Text) : Bool :=
  (afterNewline t).any fun rest => marker.isPrefixOf rest

/-- What is a prefix of a text, and has no line end, stands before its first one. -/
theorem prefix_line {p l z : Text} (hp : '\n' ∉ p) (h : p <+: l ++ '\n' :: z) : p <+: l := by
  induction l generalizing p with
  | nil =>
    cases p with
    | nil => exact List.nil_prefix
    | cons a p =>
      rw [List.nil_append, List.cons_prefix_cons] at h
      exact absurd (h.1 ▸ List.mem_cons_self) hp
  | cons c l ih =>
    cases p with
    | nil => exact List.nil_prefix
    | cons a p =>
      rw [List.cons_append, List.cons_prefix_cons] at h
      rw [List.cons_prefix_cons]
      exact ⟨h.1, ih (fun hm => hp (List.mem_cons_of_mem _ hm)) h.2⟩

/-- A marked line that starts before a line end is in the text before it, or starts at the end. -/
theorem startsLine_append {marker s z : Text} (hm : '\n' ∉ marker)
    (h : startsLine marker (s ++ '\n' :: z) = true) :
    s = [] ∨ s = ['\r'] ∨ '\n' :: marker <:+: s := by
  unfold startsLine at h
  obtain ⟨rest, hrest, hpre⟩ := Option.any_eq_true .. |>.1 h
  rw [List.isPrefixOf_iff_prefix] at hpre
  rcases s with _ | ⟨a, s⟩
  · exact .inl rfl
  by_cases ha : a = '\n'
  · subst ha
    obtain rfl : s ++ '\n' :: z = rest := Option.some.inj hrest
    obtain ⟨l, rfl⟩ := prefix_line hm hpre
    exact .inr (.inr ⟨[], l, rfl⟩)
  by_cases hr : a = '\r'
  · subst hr
    rcases s with _ | ⟨b, s⟩
    · exact .inr (.inl rfl)
    by_cases hb : b = '\n'
    · subst hb
      obtain rfl : s ++ '\n' :: z = rest := Option.some.inj hrest
      obtain ⟨l, rfl⟩ := prefix_line hm hpre
      exact .inr (.inr ⟨['\r'], l, rfl⟩)
    · simp [afterNewline, hb] at hrest
  · simp [afterNewline, ha, hr] at hrest

/-! ### the text up to a place -/

/-- The text up to the first place where `stop` holds, and what stands from there on. -/
def splitAt (stop : Text → Bool) : Text → Text × Text
  | [] => ([], [])
  | c :: cs =>
    if stop (c :: cs) then ([], c :: cs)
    else ((c :: (splitAt stop cs).1), (splitAt stop cs).2)

section splitAt

variable {stop : Text → Bool}

theorem splitAt_append {t r : Text} (before : ∀ s, s <:+ t → s ≠ [] → stop (s ++ r) = false)
    (here : stop r = true) (hr : r ≠ []) : splitAt stop (t ++ r) = (t, r) := by
  induction t with
  | nil =>
    cases r with
    | nil => exact absurd rfl hr
    | cons c r => simp [splitAt, here]
  | cons c t ih =>
    have hc := before (c :: t) (List.suffix_refl _) (List.cons_ne_nil _ _)
    rw [List.cons_append] at hc ⊢
    rw [splitAt, hc, ih fun s hs => before s (hs.trans (List.suffix_cons _ _))]
    rfl

theorem splitAt_self {t : Text} (none : ∀ s, s <:+ t → s ≠ [] → stop s = false) :
    splitAt stop t = (t, []) := by
  induction t with
  | nil => rfl
  | cons c t ih =>
    rw [splitAt, none (c :: t) (List.suffix_refl _) (List.cons_ne_nil _ _),
      ih fun s hs => none s (hs.trans (List.suffix_cons _ _))]
    rfl

/-- The text stops at the latest where `stop` holds. -/
theorem splitAt_length {p r : Text} (here : stop r = true) :
    (splitAt stop (p ++ r)).1.length ≤ p.length := by
  induction p with
  | nil =>
    cases r with
    | nil => simp [splitAt]
    | cons c r => simp [splitAt, here]
  | cons c p ih =>
    rw [List.cons_append, splitAt]
    split_ifs
    · simp
    · simpa using ih

end splitAt

/-! ### sections -/

/-- `(?=\r?\n##|$)`: the text up to the next heading of level two or below. -/
def untilHeading (t : Text) : Text := (splitAt (startsLine ['#', '#']) t).1

/-- A line of the text, other than its first, starts with the marker. -/
def MarkedLine (marker t : Text) : Prop := '\n' :: marker <:+: t

instance (marker t : Text) : Decidable (MarkedLine marker t) :=
  inferInstanceAs (Decidable (_ <:+: _))

/-- Up to a marked line, if none comes before it. -/
theorem splitAt_marked {marker t r : Text} {stop : Text → Bool} (hm : '\n' ∉ marker)
    (hstop : ∀ s, stop s = true → startsLine marker s = true)
    (here : stop ('\n' :: (marker ++ r)) = true) (unmarked : ¬MarkedLine marker t)
    (hr : t.getLast? ≠ some '\r') :
    splitAt stop (t ++ '\n' :: (marker ++ r)) = (t, '\n' :: (marker ++ r)) := by
  refine splitAt_append (fun s hs hne => ?_) here (List.cons_ne_nil _ _)
  rw [Bool.eq_false_iff]
  intro h
  rcases startsLine_append hm (hstop _ h) with rfl | rfl | hin
  · exact hne rfl
  · obtain ⟨p, rfl⟩ := hs
    simp at hr
  · exact unmarked (hin.trans hs.isInfix)

theorem untilHeading_append {t r : Text} (unmarked : ¬MarkedLine ['#', '#'] t)
    (hr : t.getLast? ≠ some '\r') : untilHeading (t ++ '\n' :: '#' :: '#' :: r) = t := by
  have h := @splitAt_marked ['#', '#'] t r (startsLine ['#', '#']) (by decide) (fun _ h => h) rfl
    unmarked hr
  unfold untilHeading
  rw [show '\n' :: '#' :: '#' :: r = '\n' :: (['#', '#'] ++ r) from rfl, h]

theorem untilHeading_self {t : Text} (unmarked : ¬MarkedLine ['#', '#'] t) : untilHeading t = t := by
  unfold untilHeading
  rw [splitAt_self fun s hs hne => ?_]
  rw [Bool.eq_false_iff]
  intro h
  obtain ⟨rest, hrest, hpre⟩ := Option.any_eq_true .. |>.1 h
  rw [List.isPrefixOf_iff_prefix] at hpre
  obtain ⟨l, rfl⟩ := hpre
  refine unmarked (List.IsInfix.trans ?_ hs.isInfix)
  unfold afterNewline at hrest
  split at hrest
  · obtain rfl := Option.some.inj hrest
    exact ⟨[], l, rfl⟩
  · obtain rfl := Option.some.inj hrest
    exact ⟨['\r'], l, rfl⟩
  · cases hrest

/-- A heading in the text cuts it. -/
theorem untilHeading_cut {t : Text} (marked : MarkedLine ['#', '#'] t) (r : Text) :
    (untilHeading (t ++ r)).length + 3 ≤ t.length := by
  obtain ⟨p, q, rfl⟩ := marked
  have h := @splitAt_length (startsLine ['#', '#']) p ('\n' :: '#' :: '#' :: q ++ r) rfl
  unfold untilHeading
  simp only [List.append_assoc, List.cons_append, List.nil_append, List.length_append,
    List.length_cons] at h ⊢
  omega

/-! ### headings -/

section heading

variable (space : Char → Bool) (title : Text)

/-- `##\s+title\r?\n` here, for a title that does not start with a space: what stands after it. -/
def headingAt : Text → Option Text
  | '#' :: '#' :: rest =>
    if rest.takeWhile space ≠ [] ∧ title <+: rest.dropWhile space then
      afterNewline ((rest.dropWhile space).drop title.length)
    else none
  | _ => none

/-- What stands after the first heading of that title. -/
def afterHeading : Text → Option Text
  | [] => none
  | c :: cs =>
    match headingAt space title (c :: cs) with
    | some rest => some rest
    | none => afterHeading cs

/-- A title: one line, and no space before it. -/
structure Title : Prop where
  nonempty : title ≠ []
  oneLine : '\n' ∉ title
  newline : space '\n' = true

variable {space title}

theorem headingAt_append (T : Title space title) {u z : Text}
    (apart : ¬title <+: z.dropWhile space) :
    headingAt space title (u ++ '\n' :: z) = (headingAt space title (u ++ ['\n'])).map (· ++ z) := by
  rcases u with _ | ⟨a, _ | ⟨b, u⟩⟩
  · rfl
  · by_cases ha : a = '#' <;> simp [headingAt, ha]
  by_cases hab : a = '#' ∧ b = '#'
  swap
  · have hnone (t : Text) : headingAt space title (a :: b :: t) = none := by
      unfold headingAt
      split
      next heq =>
        simp only [List.cons.injEq] at heq
        exact absurd ⟨heq.1, heq.2.1⟩ hab
      next => rfl
    simp only [List.cons_append, hnone, Option.map_none]
  obtain ⟨rfl, rfl⟩ := hab
  simp only [List.cons_append, headingAt]
  by_cases hall : u.all space = true
  · -- only spaces up to the line end: the title would have to stand after it
    have hall' := List.all_eq_true.1 hall
    have hz : (u ++ '\n' :: z).dropWhile space = z.dropWhile space := by
      rw [List.dropWhile_append_of_pos hall', List.dropWhile_cons_of_pos T.newline]
    have hshort : (u ++ ['\n']).dropWhile space = [] := by
      rw [List.dropWhile_append_of_pos hall', List.dropWhile_cons_of_pos T.newline]
      rfl
    rw [hz, hshort, if_neg fun h => apart h.2, if_neg fun h => T.nonempty (List.prefix_nil.1 h.2)]
    rfl
  · obtain ⟨w, c, v, rfl, hw, hc⟩ : ∃ w c v, u = w ++ c :: v ∧ (∀ x ∈ w, space x = true) ∧
        space c = false := by
      cases hd : u.dropWhile space with
      | nil => exact absurd (List.all_eq_true.2 (List.dropWhile_eq_nil_iff.1 hd)) hall
      | cons c v =>
        refine ⟨u.takeWhile space, c, v, ?_, fun x hx => List.mem_takeWhile_imp hx, ?_⟩
        · rw [← hd, List.takeWhile_append_dropWhile]
        · have hhead := List.head_dropWhile_not space (l := u) (by simp [hd])
          simpa [hd] using hhead
    have htake (x : Text) : (w ++ c :: (v ++ x)).takeWhile space = w := by
      rw [List.takeWhile_append_of_pos hw, List.takeWhile_cons_of_neg (by simp [hc]), List.append_nil]
    have hdrop (x : Text) : (w ++ c :: (v ++ x)).dropWhile space = c :: v ++ x := by
      rw [List.dropWhile_append_of_pos hw, List.dropWhile_cons_of_neg (by simp [hc])]
      rfl
    simp only [List.append_assoc, List.cons_append, htake, hdrop]
    have hiff (x : Text) : title <+: c :: (v ++ '\n' :: x) ↔ title <+: c :: v :=
      ⟨fun h => prefix_line T.oneLine (by simpa using h), fun h => h.trans (by simp)⟩
    simp only [hiff]
    by_cases hpre : w ≠ [] ∧ title <+: c :: v
    · rw [if_pos hpre, if_pos hpre]
      have hlen := hpre.2.length_le
      have hd (x : Text) : (c :: (v ++ x)).drop title.length = (c :: v).drop title.length ++ x := by
        rw [← List.cons_append, List.drop_append_of_le_length hlen]
      rw [hd, hd]
      exact afterNewline_append _ _
    · rw [if_neg hpre, if_neg hpre]
      rfl

/-- The first heading of a text is before a line end, or after it. -/
theorem afterHeading_append (T : Title space title) {u z : Text}
    (apart : ¬title <+: z.dropWhile space) :
    afterHeading space title (u ++ '\n' :: z) =
      match afterHeading space title (u ++ ['\n']) with
      | some rest => some (rest ++ z)
      | none => afterHeading space title z := by
  induction u with
  | nil => rfl
  | cons c u ih =>
    have h := headingAt_append T (u := c :: u) apart
    rw [List.cons_append, List.cons_append] at h
    rw [List.cons_append, List.cons_append, afterHeading, afterHeading, h]
    cases headingAt space title (c :: (u ++ ['\n'])) with
    | some rest => rfl
    | none => exact ih

theorem afterNewline_some {t rest : Text} (h : afterNewline t = some rest) :
    ∃ p, t = p ++ '\n' :: rest := by
  unfold afterNewline at h
  split at h
  · obtain rfl := Option.some.inj h
    exact ⟨[], rfl⟩
  · obtain rfl := Option.some.inj h
    exact ⟨['\r'], rfl⟩
  · cases h

/-- What stands after a heading stands after a line end. -/
theorem afterHeading_some {t rest : Text} (h : afterHeading space title t = some rest) :
    ∃ p, t = p ++ '\n' :: rest := by
  induction t with
  | nil => cases h
  | cons c t ih =>
    unfold afterHeading at h
    cases hat : headingAt space title (c :: t) with
    | none =>
      rw [hat] at h
      obtain ⟨p, rfl⟩ := ih h
      exact ⟨c :: p, rfl⟩
    | some r =>
      rw [hat] at h
      obtain rfl := Option.some.inj h
      unfold headingAt at hat
      split at hat
      next u heq =>
        split_ifs at hat with hpre
        obtain ⟨p, hp⟩ := afterNewline_some hat
        refine ⟨'#' :: '#' :: (u.takeWhile space ++ ((u.dropWhile space).take title.length ++ p)), ?_⟩
        rw [heq]
        simp only [List.cons_append, List.append_assoc]
        rw [← hp, List.take_append_drop, List.takeWhile_append_dropWhile]
      next => cases hat

/-- After a heading at the end of a line there is nothing left of the line. -/
theorem afterHeading_line {l rest : Text} (hl : '\n' ∉ l)
    (h : afterHeading space title (l ++ ['\n']) = some rest) : rest = [] := by
  obtain ⟨p, hp⟩ := afterHeading_some h
  rcases List.append_eq_append_iff.1 hp with ⟨a, -, ha⟩ | ⟨a, ha, hrest⟩
  · cases a with
    | nil => exact (List.cons.inj ha).2.symm
    | cons x a =>
      have hlen := congrArg List.length ha
      simp at hlen
  · cases a with
    | nil => exact (List.cons.inj hrest).2
    | cons x a =>
      obtain ⟨rfl, -⟩ := List.cons.inj hrest
      exact absurd (by simp [ha]) hl

end heading

/-! ### items -/

section items

variable (space : Char → Bool)

def trim (t : Text) : Text := (t.dropWhile space).rdropWhile space

/-- `text.split("\n")` -/
def lines : Text → List Text
  | [] => [[]]
  | c :: cs =>
    if c = '\n' then [] :: lines cs
    else
      match lines cs with
      | [] => [[c]]
      | l :: ls => (c :: l) :: ls

/-- The item on a line, if it is one. -/
def itemOf (line : Text) : Option Text :=
  match trim space line with
  | '-' :: ' ' :: rest => some (trim space rest)
  | _ => none

def items (t : Text) : List Text := (lines t).filterMap (itemOf space)

/-- What can be an item: one line, with something on it and no space around. -/
structure Item (e : Text) : Prop where
  nonempty : e ≠ []
  oneLine : '\n' ∉ e
  trimmed : trim space e = e

variable {space}

theorem lines_ne_nil (t : Text) : lines t ≠ [] := by
  cases t with
  | nil => exact List.cons_ne_nil _ _
  | cons c t =>
    unfold lines
    split_ifs
    · exact List.cons_ne_nil _ _
    · split <;> exact List.cons_ne_nil _ _

theorem lines_oneLine {t l : Text} (h : l ∈ lines t) : '\n' ∉ l := by
  induction t generalizing l with
  | nil =>
    rw [List.mem_singleton.1 h]
    exact List.not_mem_nil
  | cons c t ih =>
    unfold lines at h
    split_ifs at h with hc
    · rcases List.mem_cons.1 h with rfl | h
      · exact List.not_mem_nil
      · exact ih h
    · cases hl : lines t with
      | nil => exact absurd hl (lines_ne_nil t)
      | cons m ms =>
        rw [hl] at h ih
        rcases List.mem_cons.1 h with rfl | h
        · intro hm
          rcases List.mem_cons.1 hm with heq | hm
          · exact hc heq.symm
          · exact ih (List.mem_cons_self ..) hm
        · exact ih (List.mem_cons_of_mem _ h)

/-- The lines of a text that starts with one. -/
theorem lines_append {l : Text} (hl : '\n' ∉ l) (t : Text) : lines (l ++ '\n' :: t) = l :: lines t := by
  induction l with
  | nil => rfl
  | cons c l ih =>
    rw [List.mem_cons, not_or] at hl
    rw [List.cons_append, lines, if_neg (fun h => hl.1 h.symm), ih hl.2]

theorem trim_eq_self {t : Text} : trim space t = t ↔
    (∀ h : t ≠ [], space (t.head h) = false) ∧ ∀ h : t ≠ [], space (t.getLast h) = false := by
  constructor
  · intro h
    have hfirst : t.dropWhile space = t :=
      (List.dropWhile_suffix space).eq_of_length_le (by
        have hlen := (List.rdropWhile_prefix space (t.dropWhile space)).length_le
        rwa [show (t.dropWhile space).rdropWhile space = t from h] at hlen)
    have hlast : t.rdropWhile space = t := by
      unfold trim at h
      rwa [hfirst] at h
    refine ⟨fun hne => ?_, fun hne => ?_⟩
    · cases t with
      | nil => exact absurd rfl hne
      | cons c t => simpa using List.dropWhile_eq_self_iff.1 hfirst (Nat.zero_lt_succ _)
    · simpa using List.rdropWhile_eq_self_iff.1 hlast hne
  · rintro ⟨hfirst, hlast⟩
    unfold trim
    cases t with
    | nil => rfl
    | cons c t =>
      have hc : space c = false := hfirst (List.cons_ne_nil _ _)
      rw [List.dropWhile_cons_of_neg (by simp [hc]), List.rdropWhile_eq_self_iff]
      intro hne
      simp [hlast hne]

theorem trim_trim (t : Text) : trim space (trim space t) = trim space t := by
  refine trim_eq_self.2 ⟨fun hne => ?_, fun hne => ?_⟩
  · obtain ⟨r, hr⟩ : trim space t <+: t.dropWhile space := List.rdropWhile_prefix space _
    have hne' : t.dropWhile space ≠ [] := fun h => hne (List.append_eq_nil_iff.1 (hr.trans h)).1
    have hhead := List.head_dropWhile_not space hne'
    simp only [← hr, List.head_append_of_ne_nil hne] at hhead
    exact hhead
  · exact Bool.eq_false_iff.2 (List.rdropWhile_last_not space (t.dropWhile space) hne)

/-- Space around a trimmed text goes. -/
theorem trim_around {w t v : Text} (hw : ∀ c ∈ w, space c = true) (hv : ∀ c ∈ v, space c = true)
    (ht : trim space t = t) : trim space (w ++ (t ++ v)) = t := by
  unfold trim
  rw [List.dropWhile_append_of_pos hw]
  cases t with
  | nil =>
    rw [List.nil_append, List.dropWhile_eq_nil_iff.2 hv]
    rfl
  | cons c t =>
    have hc : space c = false := (trim_eq_self.1 ht).1 (List.cons_ne_nil _ _)
    have hlast := List.rdropWhile_eq_self_iff (p := space) (l := c :: t).2 fun hne => by
      simp [(trim_eq_self.1 ht).2 hne]
    rw [List.cons_append, List.dropWhile_cons_of_neg (by simp [hc]), ← List.cons_append]
    unfold List.rdropWhile at hlast ⊢
    rw [List.reverse_append, List.dropWhile_append_of_pos (by simpa using hv), hlast]

theorem trim_sublist (t : Text) : (trim space t).Sublist t :=
  (List.rdropWhile_prefix space _).sublist.trans (List.dropWhile_suffix space).sublist

theorem itemOf_item (hs : space ' ' = true) {line e : Text} (hl : '\n' ∉ line)
    (h : itemOf space line = some e) : Item space e := by
  unfold itemOf at h
  split at h
  next rest htrim =>
    obtain rfl := Option.some.inj h
    have hrest : '\n' ∉ rest := fun hm => hl ((trim_sublist _).subset (by
      rw [htrim]
      exact List.mem_cons_of_mem _ (List.mem_cons_of_mem _ hm)))
    refine ⟨fun hnil => ?_, fun hm => hrest ((trim_sublist _).subset hm), trim_trim rest⟩
    -- with nothing after the blank, the trimmed line would end in space
    have hall : ∀ c ∈ ' ' :: rest, space c = true := by
      intro c hc
      rcases List.mem_cons.1 hc with rfl | hc
      · exact hs
      · have hd : rest.dropWhile space = [] := by
          by_contra hne
          have hlen := (List.rdropWhile_eq_nil_iff.1 hnil) ((rest.dropWhile space).head hne)
            (List.head_mem hne)
          rw [List.head_dropWhile_not space hne] at hlen
          cases hlen
        exact List.dropWhile_eq_nil_iff.1 hd c hc
    have hends := @trim_trim space line
    rw [htrim] at hends
    have hlast := (trim_eq_self.1 hends).2 (List.cons_ne_nil _ _)
    rw [List.getLast_cons (List.cons_ne_nil _ _),
      hall _ (List.getLast_mem (List.cons_ne_nil _ _))] at hlast
    cases hlast
  next => cases h

/-- Every item of a text can be one. -/
theorem items_item (hs : space ' ' = true) {t e : Text} (h : e ∈ items space t) : Item space e := by
  obtain ⟨line, hline, he⟩ := List.mem_filterMap.1 h
  exact itemOf_item hs (lines_oneLine hline) he

theorem itemOf_bullet (hd : space '-' = false) {e : Text} (he : Item space e) :
    itemOf space ('-' :: ' ' :: e) = some e := by
  have htrim : trim space ('-' :: ' ' :: e) = '-' :: ' ' :: e := by
    refine trim_eq_self.2 ⟨fun _ => hd, fun hne => ?_⟩
    rw [List.getLast_cons (List.cons_ne_nil _ _), List.getLast_cons he.nonempty]
    exact (trim_eq_self.1 he.trimmed).2 he.nonempty
  unfold itemOf
  rw [htrim]
  exact congrArg some he.trimmed

/-- A list of items, one a line. -/
def bullets (entries : List Text) : Text := entries.flatMap fun e => '-' :: ' ' :: (e ++ ['\n'])

theorem items_blank (t : Text) : items space ('\n' :: t) = items space t := by
  unfold items
  rw [show lines ('\n' :: t) = [] :: lines t from rfl, List.filterMap_cons_none rfl]

/-- A list of items is read back as it was written. -/
theorem items_bullets (hd : space '-' = false) {entries : List Text}
    (h : ∀ e ∈ entries, Item space e) : items space (bullets entries) = entries := by
  induction entries with
  | nil => rfl
  | cons e entries ih =>
    have he := h e (List.mem_cons_self ..)
    have hline : '\n' ∉ '-' :: ' ' :: e := by simp [he.oneLine]
    have hsplit : bullets (e :: entries) = ('-' :: ' ' :: e) ++ '\n' :: bullets entries := by
      simp [bullets]
    unfold items at ih ⊢
    rw [hsplit, lines_append hline, List.filterMap_cons_some (itemOf_bullet hd he),
      ih fun x hx => h x (List.mem_cons_of_mem _ hx)]

theorem bullets_unmarked {entries : List Text} (h : ∀ e ∈ entries, Item space e) :
    ¬MarkedLine ['#', '#'] ('\n' :: bullets entries) := by
  induction entries with
  | nil => decide
  | cons e entries ih =>
    have he := h e (List.mem_cons_self ..)
    have hih := ih fun x hx => h x (List.mem_cons_of_mem _ hx)
    intro hm
    have hsplit : '\n' :: bullets (e :: entries) =
        ('\n' :: '-' :: ' ' :: e) ++ '\n' :: bullets entries := by
      simp [bullets]
    rw [hsplit] at hm
    -- the line of the entry starts with `-`, so the mark is in the lines after it
    obtain ⟨p, q, hpq⟩ := hm
    cases p with
    | nil => simp at hpq
    | cons a p =>
      have hpq' : p ++ '\n' :: ['#', '#'] ++ q = ('-' :: ' ' :: e) ++ '\n' :: bullets entries := by
        simpa using (List.cons.inj (by simpa using hpq : a :: (p ++ '\n' :: '#' :: '#' :: q) = _)).2
      have hline : '\n' ∉ '-' :: ' ' :: e := by simp [he.oneLine]
      rw [List.append_assoc] at hpq'
      rcases List.append_eq_append_iff.1 hpq' with ⟨x, hx, hy⟩ | ⟨x, hx, hy⟩
      · cases x with
        | nil =>
          exact hih ⟨[], q, by simpa using hy⟩
        | cons b x =>
          obtain ⟨rfl, -⟩ := List.cons.inj (by simpa using hy : '\n' :: ('#' :: '#' :: q) = _)
          exact hline (by simp [hx])
      · exact hih ⟨x, q, by simpa using hy.symm⟩

end items

end Ceo.Lib.Markdown
