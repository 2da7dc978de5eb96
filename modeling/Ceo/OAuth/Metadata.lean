import Ceo.OAuth.Address
import Ceo.Lib.Scan

/-!
# Spellings of one address

The answer of `isPrivateOrSpecialIp` is read off the address where the first
group is spelled with all the digits that the prefixes ask for. Where it can be
spelled shorter, or where the address is compared as a text, two spellings get
two answers.
-/

namespace Ceo.OAuth.Metadata

open Ceo.Lib.Scan (forall_mem)

/-! ### the two answers -/

/-- The IPv4 address in an IPv4-mapped one. -/
def IPv6.embedded (a : IPv6) : Option IPv4 :=
  match a.groups with
  | [0, 0, 0, 0, 0, 0xffff, h, l] => some ⟨h / 256, h % 256, l / 256, l % 256⟩
  | _ => none

def IPv6.group (a : IPv6) (i : Nat) : Nat := (a.groups[i]?).getD 0

/-- The IPv6 ranges, and what an IPv4-mapped address stands for. -/
def IPv6.isSpecial (a : IPv6) : Bool :=
  a.groups == [0, 0, 0, 0, 0, 0, 0, 1] || a.groups == [0, 0, 0, 0, 0, 0, 0, 0] ||
    firstClass (a.group 0) || (a.group 0 == 0x2001 && a.group 1 == 0xdb8) ||
    a.embedded.any IPv4.isSpecial

def Address.isSpecial : Address → Bool
  | .v4 a => a.isSpecial
  | .v6 a => a.isSpecial

/-- The spelling decides: of the unspecified and the loopback address, of an IPv4-mapped address
whose IPv4 address is special, and where the first group is shorter than four digits and starts
like a special range. -/
def Address.confusable : Address → Bool
  | .v4 _ => false
  | .v6 a =>
    a.groups == [0, 0, 0, 0, 0, 0, 0, 1] || a.groups == [0, 0, 0, 0, 0, 0, 0, 0] ||
      a.embedded.any IPv4.isSpecial || shortStart (a.group 0)

/-- What the starts say of an address. -/
def IPv6.startClass (a : IPv6) : Bool :=
  firstClass (a.group 0) || (a.group 0 == 0x2001 && secondClass (a.group 1))

theorem octet_plain {t : Text} (h : isOctet t = true) : ∀ c ∈ t, isDigit c = true := by
  unfold isOctet at h
  simp only [Bool.and_eq_true, List.all_eq_true] at h
  exact h.1.1.1.2

theorem octet_le {t : Text} (h : isOctet t = true) : decimalValue t ≤ 255 := by
  unfold isOctet at h
  simp only [Bool.and_eq_true, decide_eq_true_eq] at h
  exact h.2

/-- A dotted text: four parts. -/
theorem parseIPv4_some {t : Text} {a : IPv4} (h : parseIPv4 t = some a) :
    ∃ p q r s, t.splitOn '.' = [p, q, r, s] ∧ (isOctet p = true ∧ isOctet q = true ∧
      isOctet r = true ∧ isOctet s = true) ∧
      a = ⟨decimalValue p, decimalValue q, decimalValue r, decimalValue s⟩ := by
  unfold parseIPv4 at h
  split at h
  · next p q r s hparts =>
    split at h
    · next hall =>
      simp only [Bool.and_eq_true, and_assoc] at hall
      exact ⟨p, q, r, s, hparts, hall, (Option.some.inj h).symm⟩
    · cases h
  · cases h

theorem privateIPv4_eq {t : Text} {a : IPv4} (h : parseIPv4 t = some a) :
    privateIPv4 t = a.isSpecial := by
  obtain ⟨p, q, r, s, hparts, -, rfl⟩ := parseIPv4_some h
  unfold privateIPv4
  rw [hparts]
  rfl

theorem ipv4_plain {t : Text} {a : IPv4} (h : parseIPv4 t = some a) :
    ∀ c ∈ t, isDigit c = true ∨ c = '.' := by
  obtain ⟨p, q, r, s, hparts, ⟨hp, hq, hr, hs⟩, -⟩ := parseIPv4_some h
  rw [splitOn_text t hparts]
  intro c hc
  simp [List.intercalate] at hc
  rcases hc with hc | rfl | hc | rfl | hc | rfl | hc
  · exact .inl (octet_plain hp c hc)
  · exact .inr rfl
  · exact .inl (octet_plain hq c hc)
  · exact .inr rfl
  · exact .inl (octet_plain hr c hc)
  · exact .inr rfl
  · exact .inl (octet_plain hs c hc)

theorem ipv4_not_group {t : Text} {a : IPv4} (h : parseIPv4 t = some a) : isGroup t = false := by
  obtain ⟨p, q, r, s, hparts, -⟩ := parseIPv4_some h
  rw [Bool.eq_false_iff]
  intro hg
  have hdot : '.' ∉ t := fun hmem => absurd ((isGroup_iff.1 hg).2.2 '.' hmem) (by decide)
  rw [List.splitOn_eq_singleton hdot] at hparts
  cases hparts


/-! ### IPv4-mapped spellings -/

theorem isHexDigit_not_colon {p : Text} (hp : ∀ c ∈ p, isHexDigit c = true) : ':' ∉ p :=
  fun h => absurd (hp _ h) (by decide)

theorem ipv4_isPlain {t : Text} {a : IPv4} (h : parseIPv4 t = some a) : ∀ c ∈ t, isPlain c = true := by
  intro c hc
  rcases ipv4_plain h c hc with hd | rfl
  · unfold isPlain
    rw [hd]
    rfl
  · rfl

theorem not_mem_of_lower {t : Text} {c : Char} (hp : isPlain c = true) (h : c ∉ lower t) : c ∉ t :=
  fun hc => h (List.mem_map.2 ⟨c, hc, (toLower_plain hp).2 rfl⟩)

/-- What is spelled `::ffff:` and an IPv4 address. -/
theorem groups_of_mapped {t rest : Text} {A : IPv6} {a : IPv4} (h : parseIPv6 t = some A)
    (ht : lower t = mappedStart.toList ++ rest) (hrest : parseIPv4 rest = some a) :
    A.groups = [0, 0, 0, 0, 0, 0xffff, 256 * a.o0 + a.o1, 256 * a.o2 + a.o3] := by
  have hplain := ipv4_isPlain hrest
  have hcolon : ':' ∉ rest := by
    intro hc
    rcases ipv4_plain hrest _ hc with hd | hd <;> exact absurd hd (by decide)
  have hzone : '%' ∉ t := by
    refine not_mem_of_lower rfl fun hc => ?_
    rw [ht, List.mem_append] at hc
    rcases hc with hc | hc
    · exact absurd hc (by decide)
    · rcases ipv4_plain hrest _ hc with hd | hd <;> exact absurd hd (by decide)
  -- the letters of the spelling, group by group
  obtain ⟨x, y, rfl, hx, hy⟩ : ∃ x y, t = x ++ y ∧ lower x = "::".toList ∧
      lower y = "ffff:".toList ++ rest := List.map_eq_append_iff.1 ht
  obtain ⟨z, r, rfl, hz, hr⟩ := List.map_eq_append_iff.1 hy
  obtain ⟨f, s, rfl, hf, hs⟩ := List.map_eq_append_iff.1 (show z.map _ = "ffff".toList ++ [':'] from hz)
  obtain rfl := (lower_plain (forall_mem (by decide))).1 hx
  obtain rfl := (lower_plain (t := s) (forall_mem (by decide))).1 hs
  obtain rfl := (lower_plain hplain).1 hr
  have hfc : ':' ∉ f := not_mem_of_lower rfl (by rw [show lower f = _ from hf]; decide)
  have hbody : parseBody ("::".toList ++ (f ++ [':'] ++ r)) = some A := by
    unfold parseIPv6 at h
    rwa [List.dropWhile_eq_nil_iff.2 fun c hc => by
      rw [bne_iff_ne]
      rintro rfl
      exact hzone hc] at h
  have hsplit : (f ++ [':'] ++ r).splitOn ':' = [f, r] := by
    have : ([':'].intercalate [f, r]).splitOn ':' = [f, r] :=
      List.splitOn_intercalate ':' (by simp [hfc, hcolon]) (by simp)
    simpa [List.intercalate] using this
  unfold parseBody at hbody
  rw [show splitDouble ("::".toList ++ (f ++ [':'] ++ r)) = some ([], f ++ [':'] ++ r) from rfl] at hbody
  obtain ⟨front, hfront, hbody⟩ := Option.bind_eq_some_iff.1 hbody
  obtain ⟨back, hback, hbody⟩ := Option.bind_eq_some_iff.1 hbody
  obtain rfl := Option.some.inj hfront
  have hback : groupsOf [f, r] = some back := by
    rw [← hsplit, ← hback]
    unfold backGroups
    rw [if_neg (by simp)]
  obtain ⟨hg, tail, htail, rfl⟩ := groupsOf_cons hback
  have htail : tail = [256 * a.o0 + a.o1, 256 * a.o2 + a.o3] := by
    unfold groupsOf at htail
    rw [ipv4_not_group hrest, hrest] at htail
    exact (Option.some.inj htail).symm
  have hvalue : groupValue f = 0xffff := by
    rw [← (lower_group hg).2.1, show lower f = _ from hf]
    rfl
  rw [htail, hvalue] at hbody
  rw [if_pos (by simp)] at hbody
  exact toIPv6_some hbody

theorem octets_le {t : Text} {a : IPv4} (h : parseIPv4 t = some a) :
    a.o0 ≤ 255 ∧ a.o1 ≤ 255 ∧ a.o2 ≤ 255 ∧ a.o3 ≤ 255 := by
  obtain ⟨p, q, r, s, -, ⟨hp, hq, hr, hs⟩, rfl⟩ := parseIPv4_some h
  exact ⟨octet_le hp, octet_le hq, octet_le hr, octet_le hs⟩

theorem embedded_of_mapped {t rest : Text} {A : IPv6} {a : IPv4} (h : parseIPv6 t = some A)
    (ht : lower t = mappedStart.toList ++ rest) (hrest : parseIPv4 rest = some a) :
    A.embedded = some a := by
  obtain ⟨h0, h1, h2, h3⟩ := octets_le hrest
  obtain ⟨o0, o1, o2, o3⟩ := a
  dsimp only at h0 h1 h2 h3
  unfold IPv6.embedded
  rw [groups_of_mapped h ht hrest]
  simp only [Option.some.injEq, IPv4.mk.injEq]
  omega

theorem startClass_of_embedded {A : IPv6} {a : IPv4} (h : A.embedded = some a) :
    A.startClass = false := by
  unfold IPv6.embedded at h
  split at h
  · next hgroups =>
    unfold IPv6.startClass IPv6.group
    rw [hgroups]
    rfl
  · cases h

/-! ### the answer on a spelling that is not confusable -/

/-- A group and a colon are a start of a text that begins with a group and a colon. -/
theorem group_colon_isPrefix {u p v w : Text} (hu : ':' ∉ u) (hp : ':' ∉ p) :
    u ++ ':' :: v <+: p ++ ':' :: w ↔ p = u ∧ v <+: w := by
  induction u generalizing p with
  | nil =>
    cases p with
    | nil => simp [List.cons_prefix_cons]
    | cons c p =>
      rw [List.mem_cons, not_or] at hp
      simp [List.cons_prefix_cons, hp.1]
  | cons d u ih =>
    rw [List.mem_cons, not_or] at hu
    cases p with
    | nil => simp [List.cons_prefix_cons, Ne.symm hu.1]
    | cons c p =>
      rw [List.mem_cons, not_or] at hp
      rw [List.cons_append, List.cons_append, List.cons_prefix_cons, ih hu.2 hp.2, List.cons.injEq,
        and_assoc, eq_comm]

theorem group_2001 {p : Text} (hp : isGroup p = true) (low : ∀ c ∈ p, isLowerHex c = true) :
    p = ['2', '0', '0', '1'] ↔ groupValue p = 0x2001 := by
  constructor
  · rintro rfl
    rfl
  · intro h
    have value {a : Char} (ha : a ∈ p) : hexValue a < 16 :=
      (toLower_hex ((isGroup_iff.1 hp).2.2 a ha)).2.2
    have digit {d a : Char} (hd : isLowerHex d = true) (ha : a ∈ p) (h : hexValue a = hexValue d) :
        a = d := (lowerHex_eq (low a ha) hd).2 h
    rcases groupValue_cases hp with ⟨a, rfl, hn⟩ | ⟨a, b, rfl, hn⟩ | ⟨a, b, c, rfl, hn⟩ |
      ⟨a, b, c, d, rfl, hn⟩
    · have va := value (a := a) (by simp)
      omega
    · have va := value (a := a) (by simp)
      have vb := value (a := b) (by simp)
      omega
    · have va := value (a := a) (by simp)
      have vb := value (a := b) (by simp)
      have vc := value (a := c) (by simp)
      omega
    · have va := value (a := a) (by simp)
      have vb := value (a := b) (by simp)
      have vc := value (a := c) (by simp)
      have vd := value (a := d) (by simp)
      have h2 : hexValue '2' = 2 := rfl
      have h0 : hexValue '0' = 0 := rfl
      have h1 : hexValue '1' = 1 := rfl
      rw [digit (d := '2') (a := a) (by decide) (by simp) (by omega),
        digit (d := '0') (a := b) (by decide) (by simp) (by omega),
        digit (d := '0') (a := c) (by decide) (by simp) (by omega),
        digit (d := '1') (a := d) (by decide) (by simp) (by omega)]

theorem group_of_some {A : IPv6} {i n : Nat} (h : A.groups[i]? = some n) : A.group i = n := by
  unfold IPv6.group
  rw [h]
  rfl

theorem specialStart_eq {t : Text} {A : IPv6} (h : Starts t A)
    (hs : shortStart (A.group 0) = false) : specialStart (lower t) = A.startClass := by
  rw [Bool.eq_iff_iff, specialStart_iff]
  unfold IPv6.startClass
  rw [Bool.or_eq_true, Bool.and_eq_true, beq_iff_eq]
  rcases h with ⟨r, rfl, h0⟩ | ⟨p, r, hp, rfl, h0, hrest⟩
  · rw [group_of_some h0]
    have hlower : lower (':' :: ':' :: r) = ':' :: ':' :: lower r := rfl
    simp [hlower, List.cons_prefix_cons, firstClass]
  · obtain ⟨hlp, hvalue, low⟩ := lower_group hp
    have hcolon := isHexDigit_not_colon (isGroup_iff.1 hlp).2.2
    rw [group_of_some h0] at hs ⊢
    have hlower : lower (p ++ ':' :: r) = lower p ++ ':' :: lower r := by
      rw [lower_append]
      rfl
    rw [hlower, first_iff hlp low (by rwa [hvalue]), hvalue]
    have hdoc : (['2', '0', '0', '1', ':', 'd', 'b', '8'] <+: lower p ++ ':' :: lower r ∨
        ['2', '0', '0', '1', ':', '0', 'd', 'b', '8'] <+: lower p ++ ':' :: lower r) ↔
        groupValue p = 0x2001 ∧
          (['d', 'b', '8'] <+: lower r ∨ ['0', 'd', 'b', '8'] <+: lower r) := by
      rw [← hvalue, ← group_2001 hlp low, and_or_left]
      exact or_congr (group_colon_isPrefix (u := ['2', '0', '0', '1']) (by decide) hcolon)
        (group_colon_isPrefix (u := ['2', '0', '0', '1']) (by decide) hcolon)
    rw [hdoc]
    refine or_congr Iff.rfl (and_congr Iff.rfl ?_)
    rcases hrest with ⟨r', rfl, h1⟩ | ⟨q, r', hq, rfl, h1⟩
    · rw [group_of_some h1]
      have hlower : lower (':' :: r') = ':' :: lower r' := rfl
      simp [hlower, List.cons_prefix_cons, secondClass]
    · obtain ⟨hlq, hvalue, low⟩ := lower_group hq
      rw [group_of_some h1, ← hvalue, lower_append]
      exact second_iff hlq low rfl

theorem groups_of_spelling {t u : Text} {A : IPv6} {gs : List Nat} (h : parseIPv6 t = some A)
    (ht : lower t = u) (hu : ∀ c ∈ u, isPlain c = true)
    (hgs : (parseIPv6 u).map IPv6.groups = some gs) : A.groups = gs := by
  rw [lower_plain hu] at ht
  rw [← ht, h] at hgs
  exact Option.some.inj hgs

theorem privateIPv6_eq {t : Text} {A : IPv6} (h : parseIPv6 t = some A)
    (hc : (Address.v6 A).confusable = false) : privateIPv6 t = A.startClass := by
  unfold Address.confusable at hc
  simp only [Bool.or_eq_false_iff, beq_eq_false_iff_ne, ne_eq, and_assoc] at hc
  obtain ⟨hone, hzero, hembedded, hshort⟩ := hc
  unfold privateIPv6
  dsimp only
  split
  · next hmapped =>
    rw [Bool.and_eq_true, startsWith_iff] at hmapped
    obtain ⟨⟨rest, hrest⟩, hsome⟩ := hmapped
    have hdrop : (lower t).drop 7 = rest := by
      rw [← hrest]
      rfl
    rw [hdrop] at hsome ⊢
    obtain ⟨a, ha⟩ := Option.isSome_iff_exists.1 hsome
    have hA := embedded_of_mapped h hrest.symm ha
    rw [privateIPv4_eq ha, startClass_of_embedded hA]
    rw [hA] at hembedded
    exact hembedded
  · split
    · next heq =>
      refine absurd ?_ hone
      rcases heq with heq | heq
      · exact groups_of_spelling h heq (forall_mem (by decide)) (by decide)
      · exact groups_of_spelling h heq (forall_mem (by decide)) (by decide)
    · split
      · next heq =>
        refine absurd ?_ hzero
        rcases heq with heq | heq
        · exact groups_of_spelling h heq (forall_mem (by decide)) (by decide)
        · exact groups_of_spelling h heq (forall_mem (by decide)) (by decide)
      · exact specialStart_eq (starts_of_parse h) hshort

theorem startClass_of_isSpecial {A : IPv6} (hc : (Address.v6 A).confusable = false)
    (hs : A.isSpecial = true) : A.startClass = true := by
  unfold Address.confusable at hc
  simp only [Bool.or_eq_false_iff, and_assoc] at hc
  obtain ⟨hone, hzero, hembedded, -⟩ := hc
  unfold IPv6.isSpecial at hs
  rw [hone, hzero, hembedded] at hs
  unfold IPv6.startClass secondClass
  simp only [Bool.or_eq_true, Bool.and_eq_true, beq_iff_eq, Bool.false_or, Bool.or_false] at hs ⊢
  exact hs.imp_right fun h => ⟨h.1, .inl h.2⟩

/-! ### spelling an address in full -/

/-- A digit. -/
def hexDigit (n : Nat) : Char := Char.ofNat (if n < 10 then 48 + n else 87 + n)

theorem hexDigit_spec {n : Nat} (h : n < 16) :
    isHexDigit (hexDigit n) = true ∧ hexValue (hexDigit n) = n := by
  have hall : (List.range 16).all (fun n => isHexDigit (hexDigit n) && hexValue (hexDigit n) == n) =
      true := by decide
  have := List.all_eq_true.1 hall n (List.mem_range.2 h)
  simpa using this

/-- Four digits. -/
def pad4 (n : Nat) : Text :=
  [hexDigit (n / 4096), hexDigit (n / 256 % 16), hexDigit (n / 16 % 16), hexDigit (n % 16)]

/-- No zeros in front, of a group of two or three digits. -/
def short (n : Nat) : Text :=
  if n < 256 then [hexDigit (n / 16), hexDigit (n % 16)]
  else [hexDigit (n / 256), hexDigit (n / 16 % 16), hexDigit (n % 16)]

theorem pad4_group {n : Nat} (h : n < 65536) : isGroup (pad4 n) = true ∧ groupValue (pad4 n) = n := by
  have h0 := hexDigit_spec (n := n / 4096) (by omega)
  have h1 := hexDigit_spec (n := n / 256 % 16) (by omega)
  have h2 := hexDigit_spec (n := n / 16 % 16) (by omega)
  have h3 := hexDigit_spec (n := n % 16) (by omega)
  constructor
  · simp [isGroup, pad4, h0.1, h1.1, h2.1, h3.1]
  · simp only [groupValue, pad4, List.foldl_cons, List.foldl_nil, h0.2, h1.2, h2.2, h3.2]
    omega

theorem short_spec {n : Nat} (h : shortStart n = true) :
    isGroup (short n) = true ∧ groupValue (short n) = n ∧ specialStart (lower (short n)) = true := by
  have hall : ([0xfc, 0xfd, 0xff] ++ List.range' 0xfc0 64).all (fun n => !shortStart n ||
      (isGroup (short n) && groupValue (short n) == n && specialStart (lower (short n)))) = true := by
    decide +kernel
  have hmem : n ∈ [0xfc, 0xfd, 0xff] ++ List.range' 0xfc0 64 := by
    unfold shortStart at h
    simp only [Bool.or_eq_true, Bool.and_eq_true, decide_eq_true_eq, beq_iff_eq] at h
    simp only [List.mem_append, List.mem_cons, List.not_mem_nil, List.mem_range'_1]
    omega
  have := List.all_eq_true.1 hall n hmem
  simpa [h, and_assoc] using this

/-- Groups with colons between them. -/
def join (parts : List Text) : Text := [':'].intercalate parts

theorem join_cons (p q : Text) (ps : List Text) :
    join (p :: q :: ps) = p ++ ':' :: join (q :: ps) := by
  simp [join, List.intercalate]

theorem splitDouble_of_not_mem {t : Text} (h : ':' ∉ t) : splitDouble t = none := by
  rw [Option.eq_none_iff_forall_not_mem]
  rintro ⟨l, r⟩ hsome
  rw [splitDouble_some hsome] at h
  simp at h

theorem splitDouble_cons {c : Char} {t : Text} (h : c ≠ ':' ∨ t.head? ≠ some ':')
    (ht : splitDouble t = none) : splitDouble (c :: t) = none := by
  rw [splitDouble, ht]
  · rfl
  · rintro rest rfl rfl
    simp at h

theorem splitDouble_group {p t : Text} (hp : ':' ∉ p) (hhead : t.head? ≠ some ':')
    (ht : splitDouble t = none) : splitDouble (p ++ ':' :: t) = none := by
  induction p with
  | nil => exact splitDouble_cons (.inr hhead) ht
  | cons c p ih =>
    rw [List.mem_cons, not_or] at hp
    exact splitDouble_cons (.inl (Ne.symm hp.1)) (ih hp.2)

theorem group_head {p : Text} (hp : isGroup p = true) (t : Text) : (p ++ t).head? ≠ some ':' := by
  obtain ⟨hne, -, hhex⟩ := isGroup_iff.1 hp
  match p, hne with
  | c :: p, _ =>
    rw [List.cons_append, List.head?_cons]
    intro h
    have := hhex c (List.mem_cons_self ..)
    rw [Option.some.inj h] at this
    exact absurd this (by decide)

theorem join_head {p : Text} {ps : List Text} (hp : isGroup p = true) :
    (join (p :: ps)).head? ≠ some ':' := by
  cases ps with
  | nil => simpa [join, List.intercalate] using group_head hp []
  | cons q ps =>
    rw [join_cons]
    exact group_head hp _

theorem splitDouble_join {ps : List Text} (h : ∀ p ∈ ps, isGroup p = true) :
    splitDouble (join ps) = none := by
  induction ps with
  | nil => rfl
  | cons p ps ih =>
    rw [List.forall_mem_cons] at h
    have hp := isHexDigit_not_colon (isGroup_iff.1 h.1).2.2
    cases ps with
    | nil => exact splitDouble_of_not_mem (by simpa [join, List.intercalate] using hp)
    | cons q ps =>
      rw [join_cons]
      exact splitDouble_group hp (join_head (List.forall_mem_cons.1 h.2).1) (ih h.2)

theorem groupsOf_groups {ps : List Text} (h : ∀ p ∈ ps, isGroup p = true) :
    groupsOf ps = some (ps.map groupValue) := by
  induction ps with
  | nil => rfl
  | cons p ps ih =>
    rw [List.forall_mem_cons] at h
    cases ps with
    | nil =>
      unfold groupsOf
      rw [if_pos h.1]
      rfl
    | cons q ps =>
      unfold groupsOf
      rw [if_pos h.1, ih h.2]
      rfl

theorem mem_join {ps : List Text} (h : ∀ p ∈ ps, isGroup p = true) {c : Char} (hc : c ∈ join ps) :
    isHexDigit c = true ∨ c = ':' := by
  induction ps with
  | nil => cases hc
  | cons p ps ih =>
    rw [List.forall_mem_cons] at h
    cases ps with
    | nil =>
      refine .inl ((isGroup_iff.1 h.1).2.2 c ?_)
      simpa [join, List.intercalate] using hc
    | cons q ps =>
      rw [join_cons, List.mem_append, List.mem_cons] at hc
      rcases hc with hc | rfl | hc
      · exact .inl ((isGroup_iff.1 h.1).2.2 c hc)
      · exact .inr rfl
      · exact ih h.2 hc

/-- The address of groups that are all written out. -/
theorem address_join {ps : List Text} {A : IPv6} (hne : ps ≠ []) (h : ∀ p ∈ ps, isGroup p = true)
    (hA : ps.map groupValue = A.groups) : address (join ps) = some (.v6 A) := by
  have hno {c : Char} (hhex : isHexDigit c = false) (hcolon : c ≠ ':') : c ∉ join ps := by
    intro hc
    rcases mem_join h hc with hc | hc
    · rw [hhex] at hc
      cases hc
    · exact hcolon hc
  have h4 : parseIPv4 (join ps) = none := by
    unfold parseIPv4
    rw [List.splitOn_eq_singleton (hno rfl (by decide))]
  have hzone : (join ps).dropWhile (· != '%') = [] := by
    refine List.dropWhile_eq_nil_iff.2 fun c hc => ?_
    rw [bne_iff_ne]
    rintro rfl
    exact hno rfl (by decide) hc
  have hsplit : (join ps).splitOn ':' = ps :=
    List.splitOn_intercalate ':' (fun p hp => isHexDigit_not_colon (isGroup_iff.1 (h p hp)).2.2) hne
  unfold address parseIPv6
  rw [h4, hzone]
  dsimp only
  unfold parseBody
  rw [splitDouble_join h]
  dsimp only
  rw [hsplit, groupsOf_groups h, hA]
  unfold toIPv6
  rw [Option.bind_some, dif_pos ⟨A.length, A.bound⟩]
  rfl

/-- Every group with four digits. -/
def IPv6.full (a : IPv6) : Text := join (a.groups.map pad4)

/-- The same, with a short first group. -/
def IPv6.shorter (a : IPv6) : Text := join (short (a.group 0) :: a.groups.tail.map pad4)

theorem address_full (A : IPv6) : address A.full = some (.v6 A) := by
  refine address_join ?_ (fun p hp => ?_) ?_
  · have := A.length
    intro hnil
    rw [List.map_eq_nil_iff.1 hnil] at this
    cases this
  · obtain ⟨g, hg, rfl⟩ := List.mem_map.1 hp
    exact (pad4_group (A.bound g hg)).1
  · rw [List.map_map]
    exact (List.map_congr_left fun g hg => (pad4_group (A.bound g hg)).2).trans (List.map_id _)

theorem groups_eq_cons (A : IPv6) : A.groups = A.group 0 :: A.groups.tail := by
  unfold IPv6.group
  match hg : A.groups with
  | [] =>
    have := A.length
    rw [hg] at this
    cases this
  | g :: gs => rfl

theorem address_shorter {A : IPv6} (h : shortStart (A.group 0) = true) :
    address A.shorter = some (.v6 A) := by
  obtain ⟨hg, hvalue, -⟩ := short_spec h
  have hpad : ∀ g ∈ A.groups.tail, isGroup (pad4 g) = true ∧ groupValue (pad4 g) = g :=
    fun g hg => pad4_group (A.bound g (List.mem_of_mem_tail hg))
  refine address_join (List.cons_ne_nil _ _) (fun p hp => ?_) ?_
  · rcases List.mem_cons.1 hp with rfl | hp
    · exact hg
    · obtain ⟨g, hg, rfl⟩ := List.mem_map.1 hp
      exact (hpad g hg).1
  · rw [List.map_cons, hvalue, List.map_map, groups_eq_cons A]
    congr 1
    exact (List.map_congr_left fun g hg => (hpad g hg).2).trans (List.map_id _)

theorem specialStart_append {t : Text} (h : specialStart t = true) (u : Text) :
    specialStart (t ++ u) = true := by
  rw [specialStart_iff] at h ⊢
  have more {s : Text} (hs : s <+: t) : s <+: t ++ u := hs.trans (List.prefix_append ..)
  exact h.imp (Or.imp more (Or.imp more (Or.imp more (Or.imp more (Or.imp more (Or.imp more more))))))
    (Or.imp more more)

theorem isPrivate_v6 {t : Text} {A : IPv6} (h : address t = some (.v6 A)) :
    isPrivateOrSpecialIp t = privateIPv6 t ∧ parseIPv6 t = some A := by
  have h6 : parseIPv6 t = some A := by
    unfold address at h
    split at h
    · cases h
    · obtain ⟨a, ha, heq⟩ := Option.map_eq_some_iff.1 h
      rw [ha, Address.v6.inj heq]
  refine ⟨?_, h6⟩
  unfold isPrivateOrSpecialIp isIP
  rw [h]
  rfl

theorem isPrivate_v4 {t : Text} {a : IPv4} (h : address t = some (.v4 a)) :
    isPrivateOrSpecialIp t = a.isSpecial := by
  have h4 : parseIPv4 t = some a := by
    unfold address at h
    split at h
    · next b hb => rw [hb, Address.v4.inj (Option.some.inj h)]
    · obtain ⟨b, -, heq⟩ := Option.map_eq_some_iff.1 h
      cases heq
  unfold isPrivateOrSpecialIp isIP
  rw [h]
  exact privateIPv4_eq h4

/-- A first group with four digits of which the first is zero is answered like a public one. -/
theorem isPrivate_full {A : IPv6} (h : A.group 0 < 0x1000) : isPrivateOrSpecialIp A.full = false := by
  rw [(isPrivate_v6 (address_full A)).1]
  obtain ⟨c, rest, hc, hlower⟩ : ∃ c rest, c ≠ ':' ∧ lower A.full = '0' :: c :: rest := by
    have hdigit := (toLower_hex (hexDigit_spec (n := A.group 0 / 256 % 16) (by omega)).1).1
    refine ⟨(hexDigit (A.group 0 / 256 % 16)).toLower, ?_⟩
    have hz : A.group 0 / 4096 = 0 := by omega
    have hne : (hexDigit (A.group 0 / 256 % 16)).toLower ≠ ':' := by
      intro heq
      rw [heq] at hdigit
      exact absurd hdigit (by decide)
    unfold IPv6.full
    rw [groups_eq_cons A, List.map_cons, pad4, hz]
    cases A.groups.tail.map pad4 with
    | nil => exact ⟨_, hne, rfl⟩
    | cons q qs =>
      rw [join_cons]
      exact ⟨_, hne, rfl⟩
  unfold privateIPv6
  dsimp only
  rw [hlower]
  have hmapped : startsWith ('0' :: c :: rest) mappedStart = false := by
    rw [Bool.eq_false_iff, ne_eq, startsWith_iff, mappedStart]
    simp [List.cons_prefix_cons]
  have hstart : specialStart ('0' :: c :: rest) = false := by
    rw [Bool.eq_false_iff, ne_eq, specialStart_iff]
    simp [List.cons_prefix_cons]
  rw [hmapped, Bool.false_and, if_neg Bool.false_ne_true, if_neg, if_neg, hstart]
  · simp [hc]
  · simp [hc]

theorem isPrivate_shorter {A : IPv6} (h : shortStart (A.group 0) = true) :
    isPrivateOrSpecialIp A.shorter = true := by
  obtain ⟨hg, -, hstart⟩ := short_spec h
  have hspecial : specialStart (lower A.shorter) = true := by
    unfold IPv6.shorter
    cases A.groups.tail.map pad4 with
    | nil => simpa [join, List.intercalate] using hstart
    | cons q qs =>
      rw [join_cons, lower_append]
      exact specialStart_append hstart _
  rw [(isPrivate_v6 (address_shorter h)).1]
  unfold privateIPv6
  dsimp only
  have hmapped : startsWith (lower A.shorter) mappedStart = false := by
    rw [Bool.eq_false_iff, ne_eq, startsWith_iff, mappedStart]
    rintro ⟨rest, hrest⟩
    rw [← hrest, specialStart_iff] at hspecial
    simp [List.cons_prefix_cons] at hspecial
  rw [hmapped, Bool.false_and, if_neg Bool.false_ne_true, hspecial]
  split_ifs <;> rfl

theorem shortStart_lt {n : Nat} (h : shortStart n = true) : n < 0x1000 := by
  unfold shortStart at h
  simp only [Bool.or_eq_true, Bool.and_eq_true, decide_eq_true_eq, beq_iff_eq] at h
  omega

theorem embedded_group {A : IPv6} {a : IPv4} (h : A.embedded = some a) : A.group 0 = 0 := by
  unfold IPv6.embedded at h
  split at h
  · next hgroups =>
    unfold IPv6.group
    rw [hgroups]
    rfl
  · cases h

/-! ### result -/

/-- What the check is for: every two spellings of the address get one answer, and it is true of a
special one. -/
def Address.Settled (a : Address) : Prop :=
  ∀ t t', address t = some a → address t' = some a →
    isPrivateOrSpecialIp t = isPrivateOrSpecialIp t' ∧
      (a.isSpecial = true → isPrivateOrSpecialIp t = true)

/-- A loopback address that is spelled in hexadecimal. -/
theorem mapped_loopback_open : isPrivateOrSpecialIp "::ffff:127.0.0.1".toList = true ∧
    isPrivateOrSpecialIp "::ffff:7f00:1".toList = false ∧
    ∃ a, address "::ffff:127.0.0.1".toList = some a ∧ address "::ffff:7f00:1".toList = some a ∧
      a.isSpecial = true ∧ ¬ a.Settled := by
  refine ⟨by decide, by decide, .v6 ⟨[0, 0, 0, 0, 0, 0xffff, 0x7f00, 1], by decide, by decide⟩,
    by decide, by decide, by decide, fun h => ?_⟩
  have := (h "::ffff:127.0.0.1".toList "::ffff:7f00:1".toList (by decide) (by decide)).1
  revert this
  decide

theorem confusable_cases {A : IPv6} (h : (Address.v6 A).confusable = true) :
    (A.isSpecial = true ∧ A.group 0 = 0) ∨ shortStart (A.group 0) = true := by
  unfold Address.confusable at h
  unfold IPv6.isSpecial
  simp only [Bool.or_eq_true, beq_iff_eq] at h ⊢
  rcases h with ((h | h) | h) | h
  · exact .inl ⟨.inl (.inl (.inl (.inl h))), by unfold IPv6.group; rw [h]; rfl⟩
  · exact .inl ⟨.inl (.inl (.inl (.inr h))), by unfold IPv6.group; rw [h]; rfl⟩
  · match ha : A.embedded, h with
    | some a, h => exact .inl ⟨.inr h, embedded_group ha⟩
  · exact .inr h

/-- The addresses whose spellings are told alike. -/
theorem settled_iff (a : Address) : a.Settled ↔ a.confusable = false := by
  constructor
  · intro h
    rw [Bool.eq_false_iff]
    intro hc
    cases a with
    | v4 a => cases hc
    | v6 A =>
      rcases confusable_cases hc with ⟨hs, h0⟩ | hs
      · have := (h A.full A.full (address_full A) (address_full A)).2 hs
        rw [isPrivate_full (by omega)] at this
        cases this
      · have := (h A.full A.shorter (address_full A) (address_shorter hs)).1
        rw [isPrivate_full (shortStart_lt hs), isPrivate_shorter hs] at this
        cases this
  · intro hc t t' ht ht'
    cases a with
    | v4 a => exact ⟨by rw [isPrivate_v4 ht, isPrivate_v4 ht'], fun hs => by rw [isPrivate_v4 ht]; exact hs⟩
    | v6 A =>
      obtain ⟨h, hp⟩ := isPrivate_v6 ht
      obtain ⟨h', hp'⟩ := isPrivate_v6 ht'
      rw [h, h', privateIPv6_eq hp hc, privateIPv6_eq hp' hc]
      exact ⟨rfl, startClass_of_isSpecial hc⟩

end Ceo.OAuth.Metadata
