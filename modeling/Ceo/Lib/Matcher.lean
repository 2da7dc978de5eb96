import Mathlib.Data.List.Induction
import Ceo.Lib.Pattern

/-!
# Backtracking matchers

A regular expression with groups, as a function from a text to the ways it can
match at the start of it: first choice first, each with its groups and with what
is left. `exec` is the first way that leaves nothing.
-/

namespace Ceo.Lib

def Matcher (α : Type) : Type := List Char → List (α × List Char)

namespace Matcher

variable {α β : Type} {p : Char → Bool} {c : Char} {cs ds rest : List Char}

instance : Monad Matcher where
  pure a := fun cs => [(a, cs)]
  bind m f := fun cs => (m cs).flatMap fun x => f x.1 x.2

/-- One character of the class. -/
def one (p : Char → Bool) : Matcher Char
  | [] => []
  | c :: cs => if p c then [(c, cs)] else []

/-- `first|second` -/
def orElse (m m' : Matcher α) : Matcher α := fun cs => m cs ++ m' cs

/-- `p{n}` -/
def times (p : Char → Bool) : Nat → Matcher (List Char)
  | 0 => return []
  | n + 1 => do
    let c ← one p
    let cs ← times p n
    return c :: cs

/-- `p{0,n}` -/
def upTo (p : Char → Bool) : Nat → Matcher (List Char)
  | 0 => return []
  | n + 1 => orElse (do
      let c ← one p
      let cs ← upTo p n
      return c :: cs) (return [])

/-- `(?:m)?` -/
def optional (m : Matcher α) : Matcher (Option α) := orElse (some <$> m) (return none)

/-- `^m$`, with the text that it has matched. -/
def exec (m : Matcher α) (s : String) : Option (String × α) :=
  ((m s.toList).find? (·.2.isEmpty)).map fun x => (s, x.1)

theorem mem_pure {a b : α} : (b, rest) ∈ (pure a : Matcher α) cs ↔ b = a ∧ rest = cs := by
  show (b, rest) ∈ [(a, cs)] ↔ _
  simp

theorem mem_bind {m : Matcher α} {f : α → Matcher β} {b : β} :
    (b, rest) ∈ (m >>= f) cs ↔ ∃ a mid, (a, mid) ∈ m cs ∧ (b, rest) ∈ f a mid := by
  show (b, rest) ∈ (m cs).flatMap _ ↔ _
  simp

theorem mem_map {m : Matcher α} {f : α → β} {b : β} :
    (b, rest) ∈ (f <$> m) cs ↔ ∃ a, (a, rest) ∈ m cs ∧ b = f a := by
  show (b, rest) ∈ (m >>= fun a => pure (f a)) cs ↔ _
  simp only [mem_bind, mem_pure]
  constructor
  · rintro ⟨a, mid, h, rfl, rfl⟩
    exact ⟨a, h, rfl⟩
  · rintro ⟨a, h, rfl⟩
    exact ⟨a, rest, h, rfl, rfl⟩

theorem mem_one : (c, rest) ∈ one p cs ↔ p c = true ∧ cs = c :: rest := by
  cases cs with
  | nil => simp [one]
  | cons x xs =>
    show (c, rest) ∈ (if p x then [(x, xs)] else []) ↔ _
    split
    · simp only [List.mem_singleton, Prod.mk.injEq, List.cons.injEq]
      constructor
      · rintro ⟨rfl, rfl⟩
        exact ⟨‹_›, rfl, rfl⟩
      · rintro ⟨-, rfl, rfl⟩
        exact ⟨rfl, rfl⟩
    · simp only [List.not_mem_nil, List.cons.injEq, false_iff]
      rintro ⟨hc, rfl, -⟩
      contradiction

theorem mem_orElse {m m' : Matcher α} {a : α} :
    (a, rest) ∈ orElse m m' cs ↔ (a, rest) ∈ m cs ∨ (a, rest) ∈ m' cs := List.mem_append

theorem mem_times {n : Nat} : (ds, rest) ∈ times p n cs ↔
    ds.length = n ∧ (∀ d ∈ ds, p d = true) ∧ cs = ds ++ rest := by
  induction n generalizing ds cs rest with
  | zero =>
    rw [times, mem_pure, List.length_eq_zero_iff]
    constructor
    · rintro ⟨rfl, rfl⟩
      simp
    · rintro ⟨rfl, -, rfl⟩
      simp
  | succ n ih =>
    simp only [times, mem_bind, mem_pure, mem_one, ih]
    constructor
    · rintro ⟨c, mid, ⟨hc, rfl⟩, es, _, ⟨rfl, hes, rfl⟩, rfl, rfl⟩
      exact ⟨rfl, List.forall_mem_cons.2 ⟨hc, hes⟩, rfl⟩
    · rintro ⟨hn, hds, rfl⟩
      cases ds with
      | nil => cases hn
      | cons c es =>
        refine ⟨c, es ++ rest, ⟨hds c (by simp), rfl⟩, es, rest, ⟨?_, ?_, rfl⟩, rfl, rfl⟩
        · simpa using hn
        · exact fun d hd => hds d (List.mem_cons_of_mem _ hd)

theorem mem_upTo {n : Nat} : (ds, rest) ∈ upTo p n cs ↔
    ds.length ≤ n ∧ (∀ d ∈ ds, p d = true) ∧ cs = ds ++ rest := by
  induction n generalizing ds cs rest with
  | zero =>
    rw [upTo, mem_pure, Nat.le_zero, List.length_eq_zero_iff]
    constructor
    · rintro ⟨rfl, rfl⟩
      simp
    · rintro ⟨rfl, -, rfl⟩
      simp
  | succ n ih =>
    simp only [upTo, mem_orElse, mem_bind, mem_pure, mem_one, ih]
    constructor
    · rintro (⟨c, mid, ⟨hc, rfl⟩, es, _, ⟨hn, hes, rfl⟩, rfl, rfl⟩ | ⟨rfl, rfl⟩)
      · exact ⟨Nat.succ_le_succ hn, List.forall_mem_cons.2 ⟨hc, hes⟩, rfl⟩
      · simp
    · rintro ⟨hn, hds, rfl⟩
      cases ds with
      | nil => exact .inr ⟨rfl, rfl⟩
      | cons c es =>
        refine .inl ⟨c, es ++ rest, ⟨hds c (by simp), rfl⟩, es, rest, ⟨?_, ?_, rfl⟩, rfl, rfl⟩
        · simpa using hn
        · exact fun d hd => hds d (List.mem_cons_of_mem _ hd)

theorem mem_optional {m : Matcher α} {o : Option α} : (o, rest) ∈ optional m cs ↔
    (∃ a, o = some a ∧ (a, rest) ∈ m cs) ∨ o = none ∧ rest = cs := by
  rw [optional, mem_orElse, mem_map, mem_pure]
  exact or_congr_left ⟨fun ⟨a, h, ho⟩ => ⟨a, ho, h⟩, fun ⟨a, ho, h⟩ => ⟨a, h, ho⟩⟩

/-- Where no text can match in two ways, `exec` finds the one there is. -/
theorem exec_eq_some {m : Matcher α} {s text : String} {a : α}
    (unique : ∀ a b, (a, []) ∈ m s.toList → (b, []) ∈ m s.toList → a = b) :
    exec m s = some (text, a) ↔ text = s ∧ (a, []) ∈ m s.toList := by
  unfold exec
  rw [Option.map_eq_some_iff]
  constructor
  · rintro ⟨⟨b, rest⟩, h, heq⟩
    cases heq
    obtain rfl : rest = [] := by simpa using List.find?_some h
    exact ⟨rfl, List.mem_of_find?_eq_some h⟩
  · rintro ⟨rfl, h⟩
    cases hf : (m text.toList).find? (·.2.isEmpty) with
    | none => simpa using List.find?_eq_none.1 hf _ h
    | some x =>
      obtain ⟨b, rest⟩ := x
      obtain rfl : rest = [] := by simpa using List.find?_some hf
      obtain rfl := unique _ _ (List.mem_of_find?_eq_some hf) h
      exact ⟨_, rfl, rfl⟩

end Matcher

/-! ### digits -/

namespace Digits

/-- The number that the digits write. -/
def value (ds : List Char) : Nat := ds.foldl (fun n d => 10 * n + (d.toNat - '0'.toNat)) 0

/-- The last `n` digits of the number. -/
def padded : Nat → Nat → List Char
  | 0, _ => []
  | n + 1, v => padded n (v / 10) ++ [Nat.digitChar (v % 10)]

theorem value_concat (ds : List Char) (d : Char) :
    value (ds ++ [d]) = 10 * value ds + (d.toNat - '0'.toNat) := by
  simp [value]

theorem digitChar_toNat {n : Nat} (h : n < 10) : (Nat.digitChar n).toNat - '0'.toNat = n := by
  have all : ∀ m < 10, (Nat.digitChar m).toNat - '0'.toNat = m := by decide
  exact all n h

theorem digit_digitChar {n : Nat} (h : n < 10) : Pattern.digit (Nat.digitChar n) = true := by
  have all : ∀ m < 10, Pattern.digit (Nat.digitChar m) = true := by decide
  exact all n h

/-- A digit is the one of its value. -/
theorem digitChar_of_digit {d : Char} (h : Pattern.digit d = true) :
    d.toNat - '0'.toNat < 10 ∧ Nat.digitChar (d.toNat - '0'.toNat) = d := by
  simp only [Pattern.digit, Bool.and_eq_true, decide_eq_true_eq, Char.le_def,
    UInt32.le_iff_toNat_le] at h
  have lo : '0'.toNat ≤ d.toNat := h.1
  have hi : d.toNat ≤ '9'.toNat := h.2
  have all : ∀ m < 10, (Nat.digitChar m).toNat = m + '0'.toNat := by decide
  have zero : '0'.toNat = 48 := rfl
  have nine : '9'.toNat = 57 := rfl
  have hlt : d.toNat - '0'.toNat < 10 := by omega
  refine ⟨hlt, Char.toNat_inj.1 ?_⟩
  rw [all _ hlt]
  omega

@[simp] theorem length_padded (n v : Nat) : (padded n v).length = n := by
  induction n generalizing v with
  | zero => rfl
  | succ n ih => simp [padded, ih]

theorem digit_padded {n v : Nat} : ∀ d ∈ padded n v, Pattern.digit d = true := by
  induction n generalizing v with
  | zero => simp [padded]
  | succ n ih =>
    intro d hd
    rw [padded, List.mem_append, List.mem_singleton] at hd
    rcases hd with hd | rfl
    · exact ih d hd
    · exact digit_digitChar (Nat.mod_lt _ (by decide))

theorem value_padded {n v : Nat} (h : v < 10 ^ n) : value (padded n v) = v := by
  induction n generalizing v with
  | zero =>
    have : v = 0 := by simpa using h
    rw [this]
    rfl
  | succ n ih =>
    rw [padded, value_concat, ih (by omega), digitChar_toNat (Nat.mod_lt _ (by decide))]
    omega

theorem value_lt {ds : List Char} (h : ∀ d ∈ ds, Pattern.digit d = true) :
    value ds < 10 ^ ds.length := by
  induction ds using List.reverseRecOn with
  | nil => decide
  | append_singleton ds d ih =>
    have := ih fun e he => h e (by simp [he])
    have := (digitChar_of_digit (h d (by simp))).1
    rw [value_concat, List.length_append, List.length_singleton, Nat.pow_succ]
    omega

theorem padded_value {ds : List Char} (h : ∀ d ∈ ds, Pattern.digit d = true) :
    padded ds.length (value ds) = ds := by
  induction ds using List.reverseRecOn with
  | nil => rfl
  | append_singleton ds d ih =>
    obtain ⟨hlt, hd⟩ := digitChar_of_digit (h d (by simp))
    rw [value_concat, List.length_append, List.length_singleton, padded,
      show (10 * value ds + (d.toNat - '0'.toNat)) / 10 = value ds by omega,
      show (10 * value ds + (d.toNat - '0'.toNat)) % 10 = d.toNat - '0'.toNat by omega, hd,
      ih fun e he => h e (by simp [he])]

end Digits

end Ceo.Lib
