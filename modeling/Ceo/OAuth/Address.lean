import Ceo.Lib.Letters
import Mathlib.Data.List.Infix

/-!
# The address check of a metadata fetch

`isPrivateOrSpecialIp` of `oauth/client-metadata.ts` looks at the letters of an
address that `net.isIP` has accepted. An IPv6 address has many spellings: a
group may be padded with zeros, zeros may be left out, and the last two groups
may be dotted. Which spelling was looked at shows where the first group may be
shorter than the prefix it is compared with.
-/

namespace Ceo.OAuth.Metadata

open Ceo.Lib.Letters

abbrev Text := List Char

/-! ### addresses -/

structure IPv4 where
  o0 : Nat
  o1 : Nat
  o2 : Nat
  o3 : Nat
  deriving DecidableEq, Repr

/-- Eight groups of sixteen bits. -/
structure IPv6 where
  groups : List Nat
  length : groups.length = 8
  bound : ∀ g ∈ groups, g < 65536
  deriving DecidableEq

inductive Address where
  | v4 (a : IPv4)
  | v6 (a : IPv6)
  deriving DecidableEq

/-! ### net.isIP -/

def isDigit (c : Char) : Bool := '0' ≤ c && c ≤ '9'

def isHexDigit (c : Char) : Bool := isDigit c || ('a' ≤ c && c ≤ 'f') || ('A' ≤ c && c ≤ 'F')

def hexValue (c : Char) : Nat :=
  if isDigit c then c.toNat - 48 else if 'a' ≤ c then c.toNat - 87 else c.toNat - 55

/-- `[0-9a-fA-F]{1,4}` -/
def isGroup (t : Text) : Bool := t != [] && decide (t.length ≤ 4) && t.all isHexDigit

def groupValue (t : Text) : Nat := t.foldl (fun n c => 16 * n + hexValue c) 0

def decimalValue (t : Text) : Nat := t.foldl (fun n c => 10 * n + (c.toNat - 48)) 0

/-- `25[0-5]|2[0-4]\d|1\d\d|[1-9]\d|\d` -/
def isOctet (t : Text) : Bool :=
  t != [] && t.all isDigit && (t.length == 1 || t.head? != some '0') && decide (t.length ≤ 3) &&
    decide (decimalValue t ≤ 255)

def parseIPv4 (t : Text) : Option IPv4 :=
  match t.splitOn '.' with
  | [a, b, c, d] =>
    if isOctet a && isOctet b && isOctet c && isOctet d then
      some ⟨decimalValue a, decimalValue b, decimalValue c, decimalValue d⟩
    else none
  | _ => none

/-- Groups between colons; the last part may be dotted and is two. -/
def groupsOf : List Text → Option (List Nat)
  | [] => some []
  | [p] =>
    if isGroup p then some [groupValue p]
    else (parseIPv4 p).map fun a => [256 * a.o0 + a.o1, 256 * a.o2 + a.o3]
  | p :: q :: ps => if isGroup p then (groupsOf (q :: ps)).map (groupValue p :: ·) else none

/-- Around the first `::`. -/
def splitDouble : Text → Option (Text × Text)
  | ':' :: ':' :: rest => some ([], rest)
  | c :: rest => (splitDouble rest).map fun r => (c :: r.1, r.2)
  | [] => none

def toIPv6 (groups : List Nat) : Option IPv6 :=
  if h : groups.length = 8 ∧ ∀ g ∈ groups, g < 65536 then some ⟨groups, h.1, h.2⟩ else none

/-- The groups before `::`, none of them dotted. -/
def frontGroups (t : Text) : Option (List Nat) :=
  if t = [] then some []
  else
    let parts := t.splitOn ':'
    if parts.all isGroup then some (parts.map groupValue) else none

def backGroups (t : Text) : Option (List Nat) := if t = [] then some [] else groupsOf (t.splitOn ':')

def parseBody (t : Text) : Option IPv6 :=
  match splitDouble t with
  | none => (groupsOf (t.splitOn ':')).bind toIPv6
  | some (l, r) =>
    (frontGroups l).bind fun front =>
      (backGroups r).bind fun back =>
        if front.length + back.length ≤ 7 then
          toIPv6 (front ++ (List.replicate (8 - front.length - back.length) 0 ++ back))
        else none

def isZoneChar (c : Char) : Bool :=
  isDigit c || ('a' ≤ c && c ≤ 'z') || ('A' ≤ c && c ≤ 'Z') || c == '-' || c == '.' || c == ':'

/-- A zone may follow: `(?:%[0-9a-zA-Z-.:]{1,})?` -/
def parseIPv6 (t : Text) : Option IPv6 :=
  match t.dropWhile (· != '%') with
  | [] => parseBody t
  | _ :: zone =>
    if zone != [] && zone.all isZoneChar then parseBody (t.takeWhile (· != '%')) else none

/-- The address of a text. -/
def address (t : Text) : Option Address :=
  match parseIPv4 t with
  | some a => some (.v4 a)
  | none => (parseIPv6 t).map .v6

/-- `net.isIP` -/
def isIP (t : Text) : Nat :=
  match address t with
  | some (.v4 _) => 4
  | some (.v6 _) => 6
  | none => 0

/-! ### isPrivateOrSpecialIp -/

/-- The IPv4 ranges. -/
def IPv4.isSpecial (a : IPv4) : Bool :=
  a.o0 == 0 || a.o0 == 10 ||
  (a.o0 == 100 && decide (64 ≤ a.o1) && decide (a.o1 ≤ 127)) ||
  a.o0 == 127 ||
  (a.o0 == 169 && a.o1 == 254) ||
  (a.o0 == 172 && decide (16 ≤ a.o1) && decide (a.o1 ≤ 31)) ||
  (a.o0 == 192 && a.o1 == 0 && a.o2 == 0) ||
  (a.o0 == 192 && a.o1 == 0 && a.o2 == 2) ||
  (a.o0 == 192 && a.o1 == 88 && a.o2 == 99) ||
  (a.o0 == 192 && a.o1 == 168) ||
  (a.o0 == 198 && decide (18 ≤ a.o1) && decide (a.o1 ≤ 19)) ||
  (a.o0 == 198 && a.o1 == 51 && a.o2 == 100) ||
  (a.o0 == 203 && a.o1 == 0 && a.o2 == 113) ||
  decide (224 ≤ a.o0)

/-- The branch for family 4: the parts are numbers, as `net.isIP` has seen to. -/
def privateIPv4 (ip : Text) : Bool :=
  match (ip.splitOn '.').map decimalValue with
  | [o0, o1, o2, o3] => IPv4.isSpecial ⟨o0, o1, o2, o3⟩
  | _ => true

def startsWith (t : Text) (start : String) : Bool := decide (start.toList <+: t)

/-- `toLowerCase`, of ASCII. -/
def lower (t : Text) : Text := t.map Char.toLower

def mappedStart : String := "::ffff:"

/-- `fe80::/10`, `fc00::/7`, `ff00::/8` and `2001:db8::/32` -/
def specialStart (normalized : Text) : Bool :=
  startsWith normalized "fe8" || startsWith normalized "fe9" || startsWith normalized "fea" ||
    startsWith normalized "feb" || startsWith normalized "fc" || startsWith normalized "fd" ||
    startsWith normalized "ff" || startsWith normalized "2001:db8" ||
    startsWith normalized "2001:0db8"

/-- The branch for family 6. -/
def privateIPv6 (ip : Text) : Bool :=
  let normalized := lower ip
  let rest := normalized.drop 7
  if startsWith normalized mappedStart && (parseIPv4 rest).isSome then privateIPv4 rest
  else if normalized = "::1".toList ∨ normalized = "0:0:0:0:0:0:0:1".toList then true
  else if normalized = "::".toList ∨ normalized = "0:0:0:0:0:0:0:0".toList then true
  else specialStart normalized

def isPrivateOrSpecialIp (ip : Text) : Bool :=
  match isIP ip with
  | 4 => privateIPv4 ip
  | 6 => privateIPv6 ip
  | _ => true


/-! ### groups -/

theorem lower_append (t u : Text) : lower (t ++ u) = lower t ++ lower u := List.map_append

/-- A hexadecimal digit in lower case is one of these. -/
def isLowerHex (c : Char) : Bool := isDigit c || ('a' ≤ c && c ≤ 'f')

theorem hex_ascii {c : Char} (h : isHexDigit c = true) : c.toNat < 128 := by
  have le {a b : Char} (h : a ≤ b) : a.toNat ≤ b.toNat := h
  simp only [isHexDigit, isDigit, Bool.or_eq_true, Bool.and_eq_true, decide_eq_true_eq] at h
  rcases h with (⟨-, h⟩ | ⟨-, h⟩) | ⟨-, h⟩
  · exact lt_of_le_of_lt (le h) (by decide)
  · exact lt_of_le_of_lt (le h) (by decide)
  · exact lt_of_le_of_lt (le h) (by decide)

theorem toLower_hex {c : Char} (h : isHexDigit c = true) :
    isLowerHex c.toLower = true ∧ hexValue c.toLower = hexValue c ∧ hexValue c < 16 := by
  have := ascii_cases (p := fun c => !isHexDigit c || (isLowerHex c.toLower &&
    hexValue c.toLower == hexValue c && decide (hexValue c < 16))) (by decide) (hex_ascii h)
  simpa [h, and_assoc] using this

/-- A digit in lower case is told by its value. -/
theorem lowerHex_eq {c d : Char} (hc : isLowerHex c = true) (hd : isLowerHex d = true) :
    c = d ↔ hexValue c = hexValue d := by
  have le {a b : Char} : a ≤ b ↔ a.toNat ≤ b.toNat := Iff.rfl
  have h0 : '0'.toNat = 48 := rfl
  have h9 : '9'.toNat = 57 := rfl
  have ha : 'a'.toNat = 97 := rfl
  have hf : 'f'.toNat = 102 := rfl
  simp only [isLowerHex, isDigit, Bool.or_eq_true, Bool.and_eq_true, decide_eq_true_eq, le] at hc hd
  refine ⟨fun h => by rw [h], fun h => Char.toNat_inj.1 ?_⟩
  unfold hexValue isDigit at h
  simp only [Bool.and_eq_true, decide_eq_true_eq, le] at h
  split_ifs at h <;> omega

theorem isGroup_iff {t : Text} : isGroup t = true ↔
    t ≠ [] ∧ t.length ≤ 4 ∧ ∀ c ∈ t, isHexDigit c = true := by
  unfold isGroup
  simp [and_assoc]

/-- A group and its digits. -/
theorem groupValue_cases {p : Text} (h : isGroup p = true) :
    (∃ a, p = [a] ∧ groupValue p = hexValue a) ∨
    (∃ a b, p = [a, b] ∧ groupValue p = 16 * hexValue a + hexValue b) ∨
    (∃ a b c, p = [a, b, c] ∧
      groupValue p = 256 * hexValue a + 16 * hexValue b + hexValue c) ∨
    ∃ a b c d, p = [a, b, c, d] ∧
      groupValue p = 4096 * hexValue a + 256 * hexValue b + 16 * hexValue c + hexValue d := by
  obtain ⟨hne, hlen, -⟩ := isGroup_iff.1 h
  match p, hne, hlen with
  | [a], _, _ => exact .inl ⟨a, rfl, by simp [groupValue]⟩
  | [a, b], _, _ => exact .inr (.inl ⟨a, b, rfl, by simp [groupValue]⟩)
  | [a, b, c], _, _ => exact .inr (.inr (.inl ⟨a, b, c, rfl, by simp [groupValue]; omega⟩))
  | [a, b, c, d], _, _ =>
    exact .inr (.inr (.inr ⟨a, b, c, d, rfl, by simp [groupValue]; omega⟩))
  | _ :: _ :: _ :: _ :: _ :: _, _, hlen => simp only [List.length_cons] at hlen; omega

/-- The first groups whose short spelling starts like a special range. -/
def shortStart (n : Nat) : Bool :=
  n == 0xfc || n == 0xfd || n == 0xff || (decide (0xfc0 ≤ n) && decide (n ≤ 0xfdf)) ||
    (decide (0xff0 ≤ n) && decide (n ≤ 0xfff)) || (decide (0xfe8 ≤ n) && decide (n ≤ 0xfeb))

/-- The ranges that the first group decides. -/
def firstClass (g : Nat) : Bool :=
  (decide (0xfe80 ≤ g) && decide (g ≤ 0xfebf)) || (decide (0xfc00 ≤ g) && decide (g ≤ 0xfdff)) ||
    decide (0xff00 ≤ g)

theorem startsWith_iff {t : Text} {start : String} :
    startsWith t start = true ↔ start.toList <+: t := decide_eq_true_iff

theorem specialStart_iff {t : Text} : specialStart t = true ↔
    (['f', 'e', '8'] <+: t ∨ ['f', 'e', '9'] <+: t ∨ ['f', 'e', 'a'] <+: t ∨ ['f', 'e', 'b'] <+: t ∨
      ['f', 'c'] <+: t ∨ ['f', 'd'] <+: t ∨ ['f', 'f'] <+: t) ∨
    (['2', '0', '0', '1', ':', 'd', 'b', '8'] <+: t ∨
      ['2', '0', '0', '1', ':', '0', 'd', 'b', '8'] <+: t) := by
  unfold specialStart
  simp only [Bool.or_eq_true, startsWith_iff, or_assoc]
  rfl

/-- Four digits and the ranges they lie in. -/
theorem firstClass_digits {x y z w : Nat} (hx : x < 16) (hy : y < 16) (hz : z < 16) (hw : w < 16) :
    (15 = x ∧ 14 = y ∧ 8 = z ∨ 15 = x ∧ 14 = y ∧ 9 = z ∨ 15 = x ∧ 14 = y ∧ 10 = z ∨
      15 = x ∧ 14 = y ∧ 11 = z ∨ 15 = x ∧ 12 = y ∨ 15 = x ∧ 13 = y ∨ 15 = x ∧ 15 = y) ↔
    firstClass (4096 * x + 256 * y + 16 * z + w) = true := by
  unfold firstClass
  simp only [Bool.or_eq_true, Bool.and_eq_true, decide_eq_true_eq]
  constructor
  · rintro (h | h | h | h | h | h | h) <;> omega
  · intro h
    obtain rfl : x = 15 := by omega
    have hcases : y = 12 ∨ y = 13 ∨ y = 14 ∨ y = 15 := by omega
    rcases hcases with rfl | rfl | rfl | rfl <;> omega

theorem shortStart_three {x y z : Nat} (h : 15 = x ∧ 14 = y ∧ 8 = z ∨ 15 = x ∧ 14 = y ∧ 9 = z ∨
    15 = x ∧ 14 = y ∧ 10 = z ∨ 15 = x ∧ 14 = y ∧ 11 = z ∨ 15 = x ∧ 12 = y ∨ 15 = x ∧ 13 = y ∨
      15 = x ∧ 15 = y) (hz : z < 16) : shortStart (256 * x + 16 * y + z) = true := by
  unfold shortStart
  simp only [Bool.or_eq_true, Bool.and_eq_true, decide_eq_true_eq, beq_iff_eq]
  rcases h with h | h | h | h | h | h | h <;> omega

theorem shortStart_two {x y : Nat} (h : 15 = x ∧ 12 = y ∨ 15 = x ∧ 13 = y ∨ 15 = x ∧ 15 = y) :
    shortStart (16 * x + y) = true := by
  unfold shortStart
  simp only [Bool.or_eq_true, Bool.and_eq_true, decide_eq_true_eq, beq_iff_eq]
  rcases h with h | h | h <;> omega

theorem firstClass_small {n : Nat} (h : n < 0x1000) : firstClass n = false := by
  unfold firstClass
  simp only [Bool.or_eq_false_iff, Bool.and_eq_false_iff, decide_eq_false_iff_not]
  omega

/-- The letters of a first group tell its range, unless it is one whose short spelling starts like
a longer group. -/
theorem first_iff {p v : Text} (hp : isGroup p = true) (low : ∀ c ∈ p, isLowerHex c = true)
    (hs : shortStart (groupValue p) = false) :
    (['f', 'e', '8'] <+: p ++ ':' :: v ∨ ['f', 'e', '9'] <+: p ++ ':' :: v ∨
      ['f', 'e', 'a'] <+: p ++ ':' :: v ∨ ['f', 'e', 'b'] <+: p ++ ':' :: v ∨
      ['f', 'c'] <+: p ++ ':' :: v ∨ ['f', 'd'] <+: p ++ ':' :: v ∨ ['f', 'f'] <+: p ++ ':' :: v) ↔
    firstClass (groupValue p) = true := by
  have digit {d a : Char} (hd : isLowerHex d = true) (ha : a ∈ p) :
      d = a ↔ hexValue d = hexValue a := lowerHex_eq hd (low a ha)
  have value {a : Char} (ha : a ∈ p) : hexValue a < 16 :=
    (toLower_hex ((isGroup_iff.1 hp).2.2 a ha)).2.2
  have hf : hexValue 'f' = 15 := rfl
  have he : hexValue 'e' = 14 := rfl
  have hd : hexValue 'd' = 13 := rfl
  have hc : hexValue 'c' = 12 := rfl
  have hb : hexValue 'b' = 11 := rfl
  have ha : hexValue 'a' = 10 := rfl
  have h9 : hexValue '9' = 9 := rfl
  have h8 : hexValue '8' = 8 := rfl
  have F {a : Char} (h : a ∈ p) := @digit 'f' a (by decide) h
  have E {a : Char} (h : a ∈ p) := @digit 'e' a (by decide) h
  have D {a : Char} (h : a ∈ p) := @digit 'd' a (by decide) h
  have C {a : Char} (h : a ∈ p) := @digit 'c' a (by decide) h
  have B {a : Char} (h : a ∈ p) := @digit 'b' a (by decide) h
  have A {a : Char} (h : a ∈ p) := @digit 'a' a (by decide) h
  have N {a : Char} (h : a ∈ p) := @digit '9' a (by decide) h
  have I {a : Char} (h : a ∈ p) := @digit '8' a (by decide) h
  rcases groupValue_cases hp with ⟨a, rfl, hn⟩ | ⟨a, b, rfl, hn⟩ | ⟨a, b, c, rfl, hn⟩ |
    ⟨a, b, c, d, rfl, hn⟩
  · have va := value (a := a) (by simp)
    rw [hn, firstClass_small (by omega)]
    simp [List.cons_prefix_cons]
  · have va := value (a := a) (by simp)
    have vb := value (a := b) (by simp)
    rw [hn] at hs
    rw [hn, firstClass_small (by omega)]
    have hno := mt shortStart_two (Bool.eq_false_iff.1 hs)
    simpa [List.cons_prefix_cons, F (a := a), F (a := b), C (a := b), D (a := b), hf, hd, hc]
      using hno
  · have va := value (a := a) (by simp)
    have vb := value (a := b) (by simp)
    have vc := value (a := c) (by simp)
    rw [hn] at hs
    rw [hn, firstClass_small (by omega)]
    have hno := mt (shortStart_three · vc) (Bool.eq_false_iff.1 hs)
    simpa [List.cons_prefix_cons, F (a := a), F (a := b), C (a := b), D (a := b), E (a := b),
      I (a := c), N (a := c), A (a := c), B (a := c), hf, he, hd, hc, hb, ha, h9, h8] using hno
  · have va := value (a := a) (by simp)
    have vb := value (a := b) (by simp)
    have vc := value (a := c) (by simp)
    have vd := value (a := d) (by simp)
    rw [hn, ← firstClass_digits va vb vc vd]
    simp [List.cons_prefix_cons, F (a := a), F (a := b), C (a := b), D (a := b), E (a := b),
      I (a := c), N (a := c), A (a := c), B (a := c), hf, he, hd, hc, hb, ha, h9, h8]

/-- The second group of a documentation address. -/
def secondClass (h : Nat) : Bool := h == 0xdb8 || (decide (0xdb80 ≤ h) && decide (h ≤ 0xdb8f))

/-- The second group starts like `db8` or is `0db8`. What is behind it is not a digit. -/
theorem second_iff {q w : Text} (hq : isGroup q = true) (low : ∀ c ∈ q, isLowerHex c = true)
    (hw : w.head? = some ':') :
    (['d', 'b', '8'] <+: q ++ w ∨ ['0', 'd', 'b', '8'] <+: q ++ w) ↔
      secondClass (groupValue q) = true := by
  have digit {d a : Char} (hd : isLowerHex d = true) (ha : a ∈ q) :
      d = a ↔ hexValue d = hexValue a := lowerHex_eq hd (low a ha)
  have value {a : Char} (ha : a ∈ q) : hexValue a < 16 :=
    (toLower_hex ((isGroup_iff.1 hq).2.2 a ha)).2.2
  have hd : hexValue 'd' = 13 := rfl
  have hb : hexValue 'b' = 11 := rfl
  have h8 : hexValue '8' = 8 := rfl
  have h0 : hexValue '0' = 0 := rfl
  have D {a : Char} (h : a ∈ q) := @digit 'd' a (by decide) h
  have B {a : Char} (h : a ∈ q) := @digit 'b' a (by decide) h
  have I {a : Char} (h : a ∈ q) := @digit '8' a (by decide) h
  have O {a : Char} (h : a ∈ q) := @digit '0' a (by decide) h
  obtain ⟨w', rfl⟩ : ∃ w', w = ':' :: w' := by
    cases w with
    | nil => cases hw
    | cons c w' => exact ⟨w', by rw [Option.some.inj hw]⟩
  unfold secondClass
  rcases groupValue_cases hq with ⟨a, rfl, hn⟩ | ⟨a, b, rfl, hn⟩ | ⟨a, b, c, rfl, hn⟩ |
    ⟨a, b, c, d, rfl, hn⟩
  · have va := value (a := a) (by simp)
    simp [List.cons_prefix_cons, hn]
    omega
  · have va := value (a := a) (by simp)
    have vb := value (a := b) (by simp)
    simp [List.cons_prefix_cons, hn]
    omega
  · have va := value (a := a) (by simp)
    have vb := value (a := b) (by simp)
    have vc := value (a := c) (by simp)
    simp [List.cons_prefix_cons, hn, D (a := a), B (a := b), I (a := c), hd, hb, h8]
    omega
  · have va := value (a := a) (by simp)
    have vb := value (a := b) (by simp)
    have vc := value (a := c) (by simp)
    have vd := value (a := d) (by simp)
    simp [List.cons_prefix_cons, hn, D (a := a), B (a := b), I (a := c), O (a := a), D (a := b),
      B (a := c), I (a := d), hd, hb, h8, h0]
    omega

/-! ### shapes of a spelling -/

theorem splitDouble_some {t l r : Text} (h : splitDouble t = some (l, r)) :
    t = l ++ ':' :: ':' :: r := by
  induction t using splitDouble.induct generalizing l with
  | case1 rest =>
    rw [splitDouble] at h
    obtain ⟨rfl, rfl⟩ := Prod.mk.inj (Option.some.inj h)
    rfl
  | case2 c rest hne ih =>
    rw [splitDouble] at h
    · obtain ⟨⟨l', r'⟩, hrest, heq⟩ := Option.map_eq_some_iff.1 h
      obtain ⟨rfl, rfl⟩ := Prod.mk.inj heq
      rw [ih hrest]
      rfl
    · exact hne
  | case3 => cases h

theorem toIPv6_some {gs : List Nat} {a : IPv6} (h : toIPv6 gs = some a) : a.groups = gs := by
  unfold toIPv6 at h
  split at h
  · rw [← Option.some.inj h]
  · cases h

theorem splitOn_text (t : Text) {c : Char} {parts : List Text} (h : t.splitOn c = parts) :
    t = [c].intercalate parts := by
  rw [← h, List.intercalate_splitOn]

theorem groupsOf_cons {p q : Text} {ps : List Text} {gs : List Nat}
    (h : groupsOf (p :: q :: ps) = some gs) :
    isGroup p = true ∧ ∃ rest, groupsOf (q :: ps) = some rest ∧ gs = groupValue p :: rest := by
  unfold groupsOf at h
  split at h
  · next hp =>
    obtain ⟨rest, hrest, rfl⟩ := Option.map_eq_some_iff.1 h
    exact ⟨hp, rest, hrest, rfl⟩
  · cases h

theorem groupsOf_single {p : Text} {gs : List Nat} (h : groupsOf [p] = some gs) : gs.length ≤ 2 := by
  unfold groupsOf at h
  split at h
  · rw [← Option.some.inj h]
    simp
  · obtain ⟨a, -, rfl⟩ := Option.map_eq_some_iff.1 h
    simp

/-- How a spelling starts: with `::`, or with a group that a colon follows; and then with a second
colon or a second group that a colon follows. -/
def Starts (t : Text) (a : IPv6) : Prop :=
  (∃ r, t = ':' :: ':' :: r ∧ a.groups[0]? = some 0) ∨
  ∃ p r, isGroup p = true ∧ t = p ++ ':' :: r ∧ a.groups[0]? = some (groupValue p) ∧
    ((∃ r', r = ':' :: r' ∧ a.groups[1]? = some 0) ∨
      ∃ q r', isGroup q = true ∧ r = q ++ ':' :: r' ∧ a.groups[1]? = some (groupValue q))

theorem Starts.append {t : Text} {a : IPv6} (h : Starts t a) (z : Text) : Starts (t ++ z) a := by
  rcases h with ⟨r, rfl, hg⟩ | ⟨p, r, hp, rfl, hg, hrest⟩
  · exact .inl ⟨r ++ z, rfl, hg⟩
  · refine .inr ⟨p, r ++ z, hp, by simp, hg, ?_⟩
    rcases hrest with ⟨r', rfl, hh⟩ | ⟨q, r', hq, rfl, hh⟩
    · exact .inl ⟨r' ++ z, rfl, hh⟩
    · exact .inr ⟨q, r' ++ z, hq, by simp, hh⟩

theorem starts_full {t : Text} {a : IPv6} {gs : List Nat} (h : groupsOf (t.splitOn ':') = some gs)
    (ha : toIPv6 gs = some a) : Starts t a := by
  have hlen := a.length
  rw [toIPv6_some ha] at hlen
  match hparts : t.splitOn ':', h with
  | [], h => exact absurd hparts (List.splitOn_ne_nil _ _)
  | [p], h =>
    have := groupsOf_single h
    omega
  | [p, q], h =>
    obtain ⟨-, rest, hrest, rfl⟩ := groupsOf_cons h
    have := groupsOf_single hrest
    rw [List.length_cons] at hlen
    omega
  | p :: q :: s :: ps, h =>
    obtain ⟨hp, rest, hrest, rfl⟩ := groupsOf_cons h
    obtain ⟨hq, rest', -, rfl⟩ := groupsOf_cons hrest
    refine .inr ⟨p, q ++ ':' :: [':'].intercalate (s :: ps), hp, ?_, ?_, .inr ⟨q, _, hq, rfl, ?_⟩⟩
    · rw [splitOn_text t hparts]
      simp [List.intercalate]
    · rw [toIPv6_some ha]
      rfl
    · rw [toIPv6_some ha]
      rfl

theorem starts_double {l r : Text} {a : IPv6} {front back : List Nat}
    (hf : frontGroups l = some front) (hlen : front.length + back.length ≤ 7)
    (ha : a.groups = front ++ (List.replicate (8 - front.length - back.length) 0 ++ back)) :
    Starts (l ++ ':' :: ':' :: r) a := by
  obtain ⟨n, hn⟩ : ∃ n, 8 - front.length - back.length = n + 1 := ⟨7 - front.length - back.length, by omega⟩
  rw [hn, List.replicate_succ] at ha
  unfold frontGroups at hf
  split at hf
  · next hl =>
    subst hl
    obtain rfl := Option.some.inj hf
    exact .inl ⟨r, rfl, by rw [ha]; rfl⟩
  · dsimp only at hf
    split at hf
    · next hall =>
      obtain rfl := Option.some.inj hf
      match hparts : l.splitOn ':' with
      | [] => exact absurd hparts (List.splitOn_ne_nil _ _)
      | [p] =>
        have hl : l = p := by
          rw [splitOn_text l hparts]
          simp [List.intercalate]
        rw [hparts] at hall ha
        refine .inr ⟨p, ':' :: r, by simpa using hall, by rw [hl], by rw [ha]; rfl,
          .inl ⟨r, rfl, by rw [ha]; rfl⟩⟩
      | p :: q :: ps =>
        rw [hparts] at hall ha
        simp only [List.all_cons, Bool.and_eq_true] at hall
        have hl : ∃ w, l ++ ':' :: ':' :: r = p ++ ':' :: (q ++ ':' :: w) := by
          rw [splitOn_text l hparts]
          cases ps with
          | nil => exact ⟨':' :: r, by simp [List.intercalate]⟩
          | cons s ps =>
            exact ⟨[':'].intercalate (s :: ps) ++ ':' :: ':' :: r, by simp [List.intercalate]⟩
        obtain ⟨w, hw⟩ := hl
        exact .inr ⟨p, q ++ ':' :: w, hall.1, hw, by rw [ha]; rfl,
          .inr ⟨q, w, hall.2.1, rfl, by rw [ha]; rfl⟩⟩
    · cases hf

theorem starts_of_body {t : Text} {a : IPv6} (h : parseBody t = some a) : Starts t a := by
  unfold parseBody at h
  split at h
  · obtain ⟨gs, hgs, ha⟩ := Option.bind_eq_some_iff.1 h
    exact starts_full hgs ha
  · next l r hsplit =>
    obtain ⟨front, hf, h⟩ := Option.bind_eq_some_iff.1 h
    obtain ⟨back, -, h⟩ := Option.bind_eq_some_iff.1 h
    split at h
    · next hlen =>
      rw [splitDouble_some hsplit]
      exact starts_double hf hlen (toIPv6_some h)
    · cases h

theorem starts_of_parse {t : Text} {a : IPv6} (h : parseIPv6 t = some a) : Starts t a := by
  unfold parseIPv6 at h
  split at h
  · exact starts_of_body h
  · next hzone =>
    split at h
    · rw [← List.takeWhile_append_dropWhile (p := (· != '%')) (l := t)]
      exact (starts_of_body h).append _
    · cases h

/-! ### letter case -/

/-- A character that is in neither case. -/
def isPlain (c : Char) : Bool := isDigit c || c == ':' || c == '.' || c == '%'

theorem ascii_of_plain {c : Char} (h : isPlain c = true) : c.toNat < 128 := by
  simp only [isPlain, isDigit, Bool.or_eq_true, Bool.and_eq_true, decide_eq_true_eq,
    beq_iff_eq] at h
  rcases h with ((⟨-, h⟩ | rfl) | rfl) | rfl
  · exact lt_of_le_of_lt (show c.toNat ≤ '9'.toNat from h) (by decide)
  · decide
  · decide
  · decide

theorem toLower_plain {c y : Char} (hy : isPlain y = true) : c.toLower = y ↔ c = y := by
  constructor
  · rintro rfl
    have := ascii_cases (p := fun c => !isPlain c.toLower || c.toLower == c) (by decide)
      (ascii_of_toLower (ascii_of_plain hy))
    have : c.toLower = c := by simpa [hy] using this
    exact this.symm
  · rintro rfl
    have := ascii_cases (p := fun c => !isPlain c || c.toLower == c) (by decide) (ascii_of_plain hy)
    simpa [hy] using this

theorem lower_plain {t u : Text} (hu : ∀ y ∈ u, isPlain y = true) : lower t = u ↔ t = u := by
  have h := map_eq_iff (f := Char.toLower) (g := id) (s := t) fun y hy c => toLower_plain (hu y hy)
  rw [List.map_id] at h
  exact h

theorem lower_group {p : Text} (hp : isGroup p = true) :
    isGroup (lower p) = true ∧ groupValue (lower p) = groupValue p ∧
      ∀ c ∈ lower p, isLowerHex c = true := by
  obtain ⟨hne, hlen, hhex⟩ := isGroup_iff.1 hp
  have low : ∀ c ∈ lower p, isLowerHex c = true := by
    intro c hc
    obtain ⟨d, hd, rfl⟩ := List.mem_map.1 hc
    exact (toLower_hex (hhex d hd)).1
  refine ⟨isGroup_iff.2 ⟨?_, ?_, fun c hc => ?_⟩, ?_, low⟩
  · simpa [lower] using hne
  · simpa [lower] using hlen
  · have := low c hc
    unfold isLowerHex at this
    unfold isHexDigit
    rw [this]
    rfl
  · unfold groupValue lower
    rw [List.foldl_map]
    have hfold : ∀ (q : Text) (n : Nat), (∀ c ∈ q, isHexDigit c = true) →
        q.foldl (fun n c => 16 * n + hexValue c.toLower) n =
          q.foldl (fun n c => 16 * n + hexValue c) n := by
      intro q
      induction q with
      | nil => exact fun _ _ => rfl
      | cons c q ih =>
        intro n hq
        rw [List.foldl_cons, List.foldl_cons, (toLower_hex (hq c (List.mem_cons_self ..))).2.1,
          ih _ fun d hd => hq d (List.mem_cons_of_mem _ hd)]
    exact hfold p 0 hhex


end Ceo.OAuth.Metadata
