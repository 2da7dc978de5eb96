import Mathlib.Algebra.GroupWithZero.Nat

/-!
# Fixed-shape string formats

A format of fixed length is a list of character classes; `Pattern.test p s`
holds when `s` has one character of each class, in order. A regular
expression without repetition, anchored at both ends, is such a list.
-/

namespace Ceo.Lib

abbrev Pattern := List (Char → Bool)

namespace Pattern

def matchChars : Pattern → List Char → Bool
  | [], [] => true
  | p :: ps, c :: cs => p c && matchChars ps cs
  | _, _ => false

def test (p : Pattern) (s : String) : Bool := matchChars p s.toList

/-! ### character classes -/

def chr (c : Char) : Char → Bool := (· == c)
def digit (c : Char) : Bool := '0' ≤ c && c ≤ '9'
def hex (c : Char) : Bool := digit c || 'a' ≤ c && c ≤ 'f'
def hexAnyCase (c : Char) : Bool := hex c || 'A' ≤ c && c ≤ 'F'
def anyCase (c : Char) : Char → Bool := fun x => x == c || x == c.toUpper

def lit (s : String) : Pattern := s.toList.map chr
def litAnyCase (s : String) : Pattern := s.toList.map anyCase
def rep (n : Nat) (p : Char → Bool) : Pattern := List.replicate n p

/-- The five groups of a UUID over the given digits. -/
def uuid (d : Char → Bool) : Pattern :=
  rep 8 d ++ lit "-" ++ rep 4 d ++ lit "-" ++ rep 4 d ++ lit "-" ++ rep 4 d ++ lit "-" ++ rep 12 d

theorem length_of_matchChars {p : Pattern} {cs : List Char} (h : matchChars p cs = true) :
    cs.length = p.length := by
  induction p generalizing cs with
  | nil => cases cs <;> simp_all [matchChars]
  | cons c p ih =>
    cases cs with
    | nil => simp [matchChars] at h
    | cons x xs =>
      simp only [matchChars, Bool.and_eq_true] at h
      simp [ih h.2]

theorem test_rep {p : Char → Bool} {cs : List Char} (h : ∀ c ∈ cs, p c = true) :
    test (rep cs.length p) (String.ofList cs) = true := by
  unfold test rep
  rw [String.toList_ofList]
  induction cs with
  | nil => rfl
  | cons c cs ih =>
    simp only [List.length_cons, List.replicate_succ, matchChars, Bool.and_eq_true]
    exact ⟨h c (by simp), ih fun d hd => h d (by simp [hd])⟩

/-! ### byte lengths -/

theorem utf8ByteSize_ofList (cs : List Char) :
    (String.ofList cs).utf8ByteSize = (cs.map Char.utf8Size).sum := by
  induction cs with
  | nil => rfl
  | cons c cs ih =>
    rw [String.ofList_cons, String.utf8ByteSize_append, ih, String.utf8ByteSize_singleton]
    simp

theorem utf8ByteSize_eq (s : String) : s.utf8ByteSize = (s.toList.map Char.utf8Size).sum := by
  rw [← utf8ByteSize_ofList, String.ofList_toList]

/-- A class of one-byte characters. -/
def OneByte (p : Char → Bool) : Prop := ∀ c, p c = true → c.utf8Size = 1

theorem oneByte_hex : OneByte hex := by
  intro c h
  rw [Char.utf8Size_eq_one_iff]
  simp only [hex, digit, Bool.or_eq_true, Bool.and_eq_true, decide_eq_true_eq, Char.le_def] at h
  rcases h with ⟨-, h⟩ | ⟨-, h⟩
  · exact UInt32.le_trans h (by decide)
  · exact UInt32.le_trans h (by decide)

theorem utf8ByteSize_of_test {p : Pattern} {s : String} (hp : ∀ q ∈ p, OneByte q)
    (h : test p s = true) : s.utf8ByteSize = p.length := by
  rw [utf8ByteSize_eq]
  unfold test at h
  generalize s.toList = cs at h
  induction p generalizing cs with
  | nil => cases cs <;> simp_all [matchChars]
  | cons q p ih =>
    cases cs with
    | nil => simp [matchChars] at h
    | cons c cs =>
      simp only [matchChars, Bool.and_eq_true] at h
      have hc : c.utf8Size = 1 := hp q (by simp) c h.1
      have ht := ih (fun q hq => hp q (by simp [hq])) cs h.2
      simp [hc, ht, Nat.add_comm]

end Pattern

end Ceo.Lib
