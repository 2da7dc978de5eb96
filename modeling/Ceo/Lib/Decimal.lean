import Mathlib.Data.Nat.Log
import Mathlib.Algebra.Order.Group.Nat
import Mathlib.Tactic.Ring

/-!
# Rounding to significant decimal digits

`roundSig d n` is the natural number a `%.<d>g` rendering of `n` reads back
as: the nearest number with at most `d` significant decimal digits, ties to
an even last digit. It is exact below `10 ^ d`, monotone and idempotent.
-/

namespace Ceo.Lib.Decimal

/-- The multiple of `p` nearest to `n`, ties to an even quotient. -/
def nearest (p n : Nat) : Nat :=
  if 2 * (n % p) < p then n / p * p
  else if p < 2 * (n % p) then (n / p + 1) * p
  else if n / p % 2 = 0 then n / p * p
  else (n / p + 1) * p

/-- The number of trailing digits dropped from `n` to keep `d` of them. -/
def excess (d n : Nat) : Nat := Nat.log 10 n + 1 - d

def roundSig (d n : Nat) : Nat := nearest (10 ^ excess d n) n

/-! ### nearest multiple -/

theorem nearest_of_dvd {p n : Nat} (hp : 0 < p) (h : p ∣ n) : nearest p n = n := by
  obtain ⟨q, rfl⟩ := h
  simp [nearest, hp, Nat.mul_comm]

theorem dvd_nearest (p n : Nat) : p ∣ nearest p n := by
  unfold nearest
  split_ifs <;> exact Nat.dvd_mul_left _ _

theorem nearest_div (p n : Nat) :
    nearest p n = n / p * p ∧ 2 * (n % p) ≤ p ∨ nearest p n = (n / p + 1) * p ∧ p ≤ 2 * (n % p) := by
  unfold nearest
  split_ifs
  · exact .inl ⟨rfl, by omega⟩
  · exact .inr ⟨rfl, by omega⟩
  · exact .inl ⟨rfl, by omega⟩
  · exact .inr ⟨rfl, by omega⟩

theorem nearest_mono {p m n : Nat} (h : m ≤ n) : nearest p m ≤ nearest p n := by
  have hq : m / p ≤ n / p := Nat.div_le_div_right h
  rcases Nat.lt_or_eq_of_le hq with hlt | heq
  · have up : nearest p m ≤ (m / p + 1) * p := by
      rcases nearest_div p m with ⟨h1, -⟩ | ⟨h1, -⟩ <;> rw [h1]
      exact Nat.mul_le_mul_right p (Nat.le_succ _)
    have down : n / p * p ≤ nearest p n := by
      rcases nearest_div p n with ⟨h1, -⟩ | ⟨h1, -⟩ <;> rw [h1]
      exact Nat.mul_le_mul_right p (Nat.le_succ _)
    exact up.trans ((Nat.mul_le_mul_right p hlt).trans down)
  · have hr : m % p ≤ n % p := by
      have hm := Nat.div_add_mod m p
      have hn := Nat.div_add_mod n p
      rw [heq] at hm
      omega
    unfold nearest
    rw [heq]
    have hs : n / p * p ≤ (n / p + 1) * p := Nat.mul_le_mul_right p (Nat.le_succ _)
    split_ifs <;> omega

/-! ### significant digits -/

theorem pow_excess_pos (d n : Nat) : 0 < 10 ^ excess d n := Nat.pow_pos (by decide)

theorem roundSig_of_dvd {d n : Nat} (h : 10 ^ excess d n ∣ n) : roundSig d n = n :=
  nearest_of_dvd (pow_excess_pos d n) h

@[simp] theorem roundSig_zero (d : Nat) : roundSig d 0 = 0 := roundSig_of_dvd (Nat.dvd_zero _)

theorem roundSig_of_lt {d n : Nat} (h : n < 10 ^ d) : roundSig d n = n := by
  rcases Nat.eq_zero_or_pos n with rfl | hn
  · simp
  have hl : Nat.log 10 n < d := Nat.log_lt_of_lt_pow (by omega) h
  have he : excess d n = 0 := by unfold excess; omega
  exact roundSig_of_dvd (by simp [he])

/-- Rounding does not leave the decade of its argument. -/
theorem roundSig_decade {d n : Nat} (hn : n ≠ 0) (hd : 0 < d) :
    10 ^ Nat.log 10 n ≤ roundSig d n ∧ roundSig d n ≤ 10 ^ (Nat.log 10 n + 1) := by
  have hlo : 10 ^ Nat.log 10 n ≤ n := Nat.pow_log_le_self 10 hn
  have hhi : n < 10 ^ (Nat.log 10 n + 1) := Nat.lt_pow_succ_log_self (by decide) n
  have hp := pow_excess_pos d n
  have fix {k : Nat} (hk : excess d n ≤ k) : nearest (10 ^ excess d n) (10 ^ k) = 10 ^ k :=
    nearest_of_dvd hp (pow_dvd_pow 10 hk)
  constructor
  · have h := nearest_mono (p := 10 ^ excess d n) hlo
    rwa [fix (by unfold excess; omega)] at h
  · have h := nearest_mono (p := 10 ^ excess d n) hhi.le
    rwa [fix (by unfold excess; omega)] at h

theorem roundSig_mono {d m n : Nat} (hd : 0 < d) (h : m ≤ n) : roundSig d m ≤ roundSig d n := by
  rcases Nat.eq_zero_or_pos m with rfl | hm
  · simp
  have hl : Nat.log 10 m ≤ Nat.log 10 n := Nat.log_mono_right h
  rcases Nat.lt_or_eq_of_le hl with hlt | heq
  · calc roundSig d m ≤ 10 ^ (Nat.log 10 m + 1) := (roundSig_decade (by omega) hd).2
      _ ≤ 10 ^ Nat.log 10 n := Nat.pow_le_pow_right (by decide) hlt
      _ ≤ roundSig d n := (roundSig_decade (by omega) hd).1
  · have he : excess d m = excess d n := by unfold excess; rw [heq]
    unfold roundSig
    rw [he]
    exact nearest_mono h

theorem roundSig_idem {d n : Nat} (hd : 0 < d) : roundSig d (roundSig d n) = roundSig d n := by
  rcases Nat.eq_zero_or_pos n with rfl | hn
  · simp
  have ⟨hlo, hhi⟩ := roundSig_decade (by omega : n ≠ 0) hd
  refine roundSig_of_dvd ?_
  rcases Nat.lt_or_eq_of_le hhi with hlt | heq
  · have hl : Nat.log 10 (roundSig d n) = Nat.log 10 n :=
      Nat.log_eq_of_pow_le_of_lt_pow hlo hlt
    have he : excess d (roundSig d n) = excess d n := by unfold excess; rw [hl]
    rw [he]
    exact dvd_nearest _ n
  · have he : excess d (10 ^ (Nat.log 10 n + 1)) ≤ Nat.log 10 n + 1 := by
      unfold excess
      rw [Nat.log_pow (by decide)]
      omega
    rw [heq]
    exact pow_dvd_pow 10 he

end Ceo.Lib.Decimal
