import Mathlib.Algebra.Order.Field.Power
import Mathlib.Data.Rat.Cast.Order
import Mathlib.Tactic.Linarith
import Mathlib.Tactic.LinearCombination
import Mathlib.Tactic.Positivity
import Mathlib.Tactic.Ring
import Calculator.Decimal.Layout
import Calculator.Proofs.Nearest

/-!
# Seventeen digits are enough

A decimal of seventeen significant digits is nearer to what it was rounded from than one part
in `2 ^ 54`, because `2 ^ 53 < 10 ^ 16`. So a number is read back from its exact decimal,
rounded to as many digits or more (`toBinary64_of_value_eq`).

This is said about values, which are rational numbers: how a decimal is split into a
coefficient and a power of ten does not matter for what it is read as. That a value is near
to another (`Close`) is a fact about naturals once both are scaled to be whole.
-/

namespace Calculator

attribute [local instance (2000)] instPowNat

/-! ## Values that are close -/

/-- A value is less than one part in `2 ^ 54` away from another. -/
def Close (x y : ℚ) : Prop := |x - y| * 2 ^ (54 : ℕ) < y

/-- How close values are does not depend on their scale. -/
theorem Close.mul {x y k : ℚ} (h : Close x y) (hk : 0 < k) : Close (x * k) (y * k) :=
  calc |x * k - y * k| * 2 ^ (54 : ℕ)
      = |x - y| * 2 ^ (54 : ℕ) * k := by
        rw [← sub_mul, abs_mul, abs_of_pos hk]
        ring
    _ < y * k := mul_lt_mul_of_pos_right h hk

theorem close_natCast_iff {a b : ℕ} :
    Close a b ↔ 2 ^ 54 * b < 2 ^ 54 * a + b ∧ 2 ^ 54 * a < 2 ^ 54 * b + b := by
  have hpow : |(2 ^ (54 : ℕ) : ℚ)| = 2 ^ (54 : ℕ) := abs_of_pos (by positivity)
  have hbelow : (2 ^ 54 * b < 2 ^ 54 * a + b) ↔ -(b : ℚ) < (a - b) * 2 ^ (54 : ℕ) := by
    rw [← Nat.cast_lt (α := ℚ)]
    push_cast
    constructor <;> intro h <;> linarith
  have habove : (2 ^ 54 * a < 2 ^ 54 * b + b) ↔ ((a : ℚ) - b) * 2 ^ (54 : ℕ) < b := by
    rw [← Nat.cast_lt (α := ℚ)]
    push_cast
    constructor <;> intro h <;> linarith
  rw [Close, ← hpow, ← abs_mul, abs_lt, hbelow, habove]

namespace Decimal

/-! ## Values of decimals -/

theorem value_eq (d : Decimal) : d.value = d.coefficient * (10 : ℚ) ^ d.exponent := by
  obtain ⟨c, e⟩ := d
  cases e with
  | ofNat e =>
    show ((c * 10 ^ e : Nat) : ℚ) = c * (10 : ℚ) ^ (e : Int)
    rw [zpow_natCast]
    push_cast
    rfl
  | negSucc e =>
    show (c : ℚ) / (10 ^ (e + 1) : Nat) = c * (10 : ℚ) ^ (Int.negSucc e)
    rw [zpow_negSucc, div_eq_mul_inv]
    push_cast
    rfl

/-- A decimal is read as the number nearest to its value. -/
theorem exists_nearest (negative : Bool) (d : Decimal) :
    ∃ n k : Nat, 0 < k ∧ d.toBinary64 negative = Binary64.nearest negative n k ∧
      (n : ℚ) = d.value * unitsPerOne * k := by
  obtain ⟨c, e⟩ := d
  cases e with
  | ofNat e =>
    refine ⟨c * 10 ^ e * unitsPerOne, 1, Nat.one_pos, rfl, ?_⟩
    show ((c * 10 ^ e * unitsPerOne : Nat) : ℚ) = ((c * 10 ^ e : Nat) : ℚ) * unitsPerOne * (1 : Nat)
    rw [Nat.cast_mul, Nat.cast_one, mul_one]
  | negSucc e =>
    refine ⟨c * unitsPerOne, 10 ^ (e + 1), Nat.pow_pos (by decide), rfl, ?_⟩
    show ((c * unitsPerOne : Nat) : ℚ) =
      (c : ℚ) / (10 ^ (e + 1) : Nat) * unitsPerOne * (10 ^ (e + 1) : Nat)
    have hpow : ((10 ^ (e + 1) : Nat) : ℚ) ≠ 0 :=
      Nat.cast_ne_zero.2 (Nat.ne_of_gt (Nat.pow_pos (by decide)))
    rw [Nat.cast_mul, div_mul_eq_mul_div, div_mul_cancel₀ _ hpow]

/-- A decimal of one digit before the point is not too large for a number. -/
theorem isFinite_toBinary64_of_lt {negative : Bool} {d : Decimal} (h : d.value < 10) :
    (d.toBinary64 negative).isFinite = true := by
  obtain ⟨n, k, hk, hnearest, hn⟩ := d.exists_nearest negative
  have hunits : 2 ^ 4 * unitsPerOne = 2 ^ (53 + 1025) := by
    have hexponent : 4 + 1074 = 53 + 1025 := rfl
    rw [unitsPerOne, ← hexponent, Nat.pow_add 2 4 1074]
  have hlt : n < 2 ^ (53 + 1025) * k := by
    have hk' : (0 : ℚ) < k := Nat.cast_pos.2 hk
    have hunits' : (0 : ℚ) < unitsPerOne := Nat.cast_pos.2 unitsPerOne_pos
    have hscaled : d.value * unitsPerOne * k < 10 * unitsPerOne * k :=
      mul_lt_mul_of_pos_right (mul_lt_mul_of_pos_right h hunits') hk'
    have hcast : (n : ℚ) < (10 * unitsPerOne * k : ℕ) := by
      push_cast
      rwa [hn]
    rw [← hunits]
    refine Nat.lt_of_lt_of_le (Nat.cast_lt.1 hcast) (Nat.mul_le_mul_right k ?_)
    exact Nat.mul_le_mul_right _ (by decide)
  have hrank : nearestRank n k < rankCount :=
    Nat.lt_of_le_of_lt (nearestRank_le hlt) (by decide)
  rw [hnearest, Binary64.nearest, dif_pos hrank]
  rfl

/-- A decimal that is close to a magnitude is read as it. -/
theorem toBinary64_of_close {negative : Bool} {d : Decimal} {rank : Rank}
    (h : Close (d.value * unitsPerOne) (units rank)) :
    d.toBinary64 negative = .finite negative rank := by
  obtain ⟨n, k, hk, hnearest, hn⟩ := d.exists_nearest negative
  -- The bounds for the value are those for the quotient, once the divisor is multiplied out.
  have hquotient : Close (n : ℕ) (units rank * k : ℕ) := by
    rw [hn, Nat.cast_mul]
    exact h.mul (Nat.cast_pos.2 hk)
  obtain ⟨hbelow, habove⟩ := close_natCast_iff.1 hquotient
  have hrank : nearestRank n k = rank := nearestRank_of_close hbelow habove
  rw [hnearest, Binary64.nearest, dif_pos (hrank ▸ rank.isLt)]
  simp only [hrank]

/-- A power of two is a decimal, since a half is one. -/
theorem halvings_mul_pow (m s t : ℕ) :
    ((m * 2 ^ (s - t) * 5 ^ (t - s) : ℕ) : ℚ) * 10 ^ (-(t - s : ℕ) : ℤ) * (2 ^ t : ℕ) =
      (m * 2 ^ s : ℕ) := by
  have hpow : (2 : ℚ) ^ (s - t) * 2 ^ t = 2 ^ s * 2 ^ (t - s) := by
    rw [← pow_add, ← pow_add, show s - t + t = s + (t - s) by omega]
  have hten : (10 : ℚ) ^ (t - s) = 2 ^ (t - s) * 5 ^ (t - s) := by
    rw [← mul_pow]
    norm_num
  rw [zpow_neg, zpow_natCast, ← div_eq_mul_inv, div_mul_eq_mul_div,
    div_eq_iff (pow_ne_zero _ (by norm_num)), hten]
  push_cast
  linear_combination ((m : ℚ) * 5 ^ (t - s)) * hpow

/-- The exact decimal of a rank is its magnitude. -/
theorem value_exact (rank : Rank) : (exact rank).value * unitsPerOne = units rank := by
  rw [value_eq, exact, units, unitsPerOne, halvings_mul_pow]

/-! ## Rounding to digits -/

/-- Zero is not rounded. -/
theorem coefficient_roundTo {d : Decimal} (h : d.coefficient = 0) (n : Nat) :
    (d.roundTo n).coefficient = 0 := by
  rw [roundTo, nearestAt, h]
  exact roundDiv_eq (by simp) (by simp)

/-- A natural is at least the power of ten that its first digit counts. -/
theorem pow_le_of_lt_digitCount {n k : Nat} (hn : n ≠ 0) (h : k < digitCount n) : 10 ^ k ≤ n := by
  rcases Nat.eq_zero_or_pos k with rfl | hk
  · exact Nat.pos_of_ne_zero hn
  · exact Nat.le_of_not_lt fun hlt =>
      Nat.not_le_of_lt h ((Nat.length_toDigits_le_iff (by decide) hk).2 hlt)

/-- To seventeen digits or more, a natural is rounded to one that is close to it. -/
theorem roundDiv_close {c n : Nat} (hc : c ≠ 0) (hn : 17 ≤ n) :
    let r := roundDiv c (10 ^ (digitCount c - n)) * 10 ^ (digitCount c - n)
    2 ^ 54 * c < 2 ^ 54 * r + c ∧ 2 ^ 54 * r < 2 ^ 54 * c + c := by
  dsimp only
  have hc := Nat.pos_of_ne_zero hc
  generalize hk : digitCount c - n = k
  rcases Nat.eq_zero_or_pos k with rfl | hpos
  · have hexact := roundDiv_mul c Nat.one_pos
    rw [Nat.mul_one] at hexact
    rw [Nat.pow_zero, hexact]
    omega
  · have hpow : 10 ^ (16 + k) ≤ c := pow_le_of_lt_digitCount (by omega) (by omega)
    have hround := two_mul_roundDiv_mul c (Nat.pow_pos (n := k) (show 0 < 10 by decide))
    rw [Nat.pow_add] at hpow
    omega

/-- To seventeen digits or more, a decimal is rounded to one that is close to it. -/
theorem value_roundTo_close {d : Decimal} (hd : d.coefficient ≠ 0) {n : Nat} (hn : 17 ≤ n) :
    Close (d.roundTo n).value d.value := by
  obtain ⟨c, e⟩ := d
  have hround := close_natCast_iff.2 (roundDiv_close hd hn)
  rw [value_eq, value_eq, roundTo, nearestAt]
  dsimp only at hround ⊢
  generalize digitCount c - n = k at *
  generalize roundDiv c (10 ^ k) = r at *
  have hpow : (r : ℚ) * 10 ^ (e + k) = (r * 10 ^ k : ℕ) * 10 ^ e := by
    rw [zpow_add₀ (by norm_num), zpow_natCast]
    push_cast
    ring
  rw [hpow]
  exact hround.mul (by positivity)

/-! ## Reading what was rounded -/

theorem toBinary64_of_value_eq_zero {negative : Bool} {d : Decimal} (h : d.value = 0) :
    d.toBinary64 negative = .zero negative := by
  obtain ⟨n, k, hk, hnearest, hn⟩ := d.exists_nearest negative
  rw [h, zero_mul, zero_mul, Nat.cast_eq_zero] at hn
  subst hn
  have hrank := nearestRank_zero hk
  rw [hnearest, Binary64.nearest, dif_pos (by rw [hrank]; decide)]
  simp only [hrank]
  rfl

/-- What has the value of a number rounded to seventeen digits or more is read as the
    number. -/
theorem toBinary64_of_value_eq {negative : Bool} {d : Decimal} {rank : Rank} {n : Nat}
    (hn : 17 ≤ n) (h : d.value = ((exact rank).roundTo n).value) :
    d.toBinary64 negative = .finite negative rank := by
  have hexact := value_exact rank
  have hunits : (0 : ℚ) < unitsPerOne := Nat.cast_pos.2 unitsPerOne_pos
  by_cases hzero : (exact rank).coefficient = 0
  · -- A coefficient of zero is that of the rank zero, and it is not rounded.
    have hrank : rank.val = 0 := by
      by_contra hne
      rw [value_eq, hzero, Nat.cast_zero, zero_mul, zero_mul] at hexact
      exact absurd (Nat.cast_eq_zero.1 hexact.symm) (Nat.ne_of_gt (units_pos hne))
    have hvalue : d.value = 0 := by
      rw [h, value_eq, coefficient_roundTo hzero, Nat.cast_zero, zero_mul]
    rw [toBinary64_of_value_eq_zero hvalue, Binary64.zero]
    exact congrArg (Binary64.finite negative) (Fin.ext hrank.symm)
  · refine toBinary64_of_close ?_
    have hclose := value_roundTo_close hzero hn
    rw [← h] at hclose
    rw [← hexact]
    exact hclose.mul hunits

end Decimal

end Calculator
