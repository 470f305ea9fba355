import Mathlib.Tactic.Linarith
import Calculator.Proofs.Rounding
import Calculator.Proofs.Values

/-!
# The nearest number

A decimal is read as the number nearest to its value, and of two that are equally near as the
one whose significand is even (`Decimal.isNearest_toBinary64`). From halfway between the last
magnitude and the one that would follow it, it is read as the infinity
(`Decimal.toBinary64_eq_infinite`). Larger decimals are not read as smaller numbers, and
decimals of the same value as the same number, however they are written
(`Decimal.value_toBinary64_mono`, `Decimal.toBinary64_congr`).

All this is rounding to ranks (`Decimal.exists_roundsTo`).
-/

namespace Calculator

attribute [local instance (2000)] instPowNat

namespace Binary64

/-- A finite number is nearest to a rational, and even if another one is equally near. -/
structure IsNearest (x : Binary64) (r : ℚ) : Prop where
  isFinite : x.isFinite = true
  le : ∀ y : Binary64, y.isFinite = true → |x.value - r| ≤ |y.value - r|
  tie : ∀ y : Binary64, y.isFinite = true → |y.value - r| = |x.value - r| →
    y.value = x.value ∨ x.isEven = true

/-- The parity of a rank is that of its significand. -/
theorem isEven_finite (s : Bool) (k : Rank) : (finite s k).isEven = (k.val % 2 == 0) := by
  rw [isEven, significand]
  split
  · rfl
  · congr 1
    unfold binade
    omega

/-- A magnitude below zero is not nearer to what is not negative than the same one above
    zero. -/
theorem abs_sub_le_abs_neg_sub {u r : ℚ} (hu : 0 ≤ u) (hr : 0 ≤ r) :
    |u - r| ≤ |-u - r| ∧ (|-u - r| = |u - r| → u = 0 ∨ r = 0) := by
  have hneg : |-u - r| = u + r := by rw [← neg_add', abs_neg, abs_of_nonneg (add_nonneg hu hr)]
  rw [hneg]
  refine ⟨abs_le.2 ⟨by linarith, by linarith⟩, fun htie => ?_⟩
  rcases abs_choice (u - r) with h | h
  · exact .inr (by linarith)
  · exact .inl (by linarith)

/-- What is rounded to a rank is nearest to its number. -/
theorem isNearest_of_roundsTo {k : Rank} {r : ℚ} (hr : 0 ≤ r)
    (h : RoundsTo (fun k => (units k : ℚ)) (r * unitsPerOne) k) : (finite false k).IsNearest r := by
  have hpos := cast_unitsPerOne_pos
  -- In the scale of values, and among the magnitudes of numbers.
  have hscaled := h.mul (inv_pos.2 hpos)
  rw [mul_inv_cancel_right₀ hpos.ne'] at hscaled
  have hnearest := hscaled.nearest (cast_units_strictMono.mul_const (inv_pos.2 hpos))
  simp only [← div_eq_mul_inv] at hnearest
  have heven (h : k.val % 2 = 0) : (finite false k).isEven = true := by rw [isEven_finite, h]; rfl
  have hmagnitude (i : ℕ) : (0 : ℚ) ≤ units i / unitsPerOne :=
    div_nonneg (Nat.cast_nonneg _) hpos.le
  refine ⟨rfl, fun y hy => ?_, fun y hy htie => ?_⟩
  · obtain ⟨t, i, rfl⟩ := exists_eq_finite hy
    rw [value_finite_false]
    cases t with
    | false =>
      rw [value_finite_false]
      exact (hnearest i).1
    | true =>
      rw [value_finite_true]
      exact (hnearest i).1.trans (abs_sub_le_abs_neg_sub (hmagnitude i) hr).1
  · obtain ⟨t, i, rfl⟩ := exists_eq_finite hy
    rw [value_finite_false] at htie ⊢
    cases t with
    | false =>
      rw [value_finite_false] at htie ⊢
      exact ((hnearest i).2 htie).imp (fun hi => by rw [hi]) heven
    | true =>
      -- The negative number is as near as the positive one, so one of the two is a zero.
      rw [value_finite_true] at htie ⊢
      obtain ⟨hle, hzero⟩ := abs_sub_le_abs_neg_sub (hmagnitude i) hr
      have hsame := le_antisymm (htie ▸ hle) (hnearest i).1
      rcases hzero (htie.trans hsame.symm) with hi | rfl
      · exact ((hnearest i).2 hsame).imp (fun hik => by rw [← hik, hi, neg_zero]) heven
      · have hk := (hnearest 0).1
        rw [units_eq_zero_iff.2 rfl, Nat.cast_zero, zero_div, sub_zero, sub_zero, abs_zero,
          abs_nonpos_iff, ← value_finite_false, value_eq_zero_iff] at hk
        exact .inr (heven (by rw [hk]))

/-- The least rational that is read as the infinity. -/
def overflowFrom : ℚ := 2 ^ (1024 : ℕ) - 2 ^ (970 : ℕ)

/-- A step of the last binade, in units. -/
theorem cast_lastStep : ((2 ^ lastDoublings : ℕ) : ℚ) = 2 ^ (970 : ℕ) * unitsPerOne * 2 := by
  have hexponent : lastDoublings = 970 + 1074 + 1 := rfl
  simp only [unitsPerOne, Nat.cast_pow, Nat.cast_ofNat]
  rw [← pow_add, ← pow_succ, hexponent]

/-- The last magnitude and the one that would follow it have twice as many units together as the
    least rational that is too large. -/
theorem units_last_add_next :
    (units (rankCount - 1) : ℚ) + units (rankCount - 1 + 1) = 2 * (overflowFrom * unitsPerOne) := by
  have hlast : rankCount - 1 = 2 * binade - 1 + lastDoublings * binade := by decide
  have hnext : rankCount - 1 + 1 = 2 * binade + lastDoublings * binade := by decide
  have htop : (2 : ℚ) ^ (1024 : ℕ) = 2 ^ 54 * 2 ^ (970 : ℕ) := by rw [← pow_add]
  have hsteps : ((2 * binade - 1 : ℕ) : ℚ) = 2 ^ 53 - 1 ∧ ((2 * binade : ℕ) : ℚ) = 2 ^ 53 := by
    norm_num
  have hsum (a u : ℚ) : (2 ^ 53 - 1) * (a * u * 2) + 2 ^ 53 * (a * u * 2) =
      2 * ((2 ^ 54 * a - a) * u) := by ring
  rw [hnext, units_steps (.inr (by decide)) le_rfl, hlast,
    units_steps (.inr (by decide)) (by decide), Nat.cast_mul, Nat.cast_mul, cast_lastStep,
    hsteps.1, hsteps.2, overflowFrom, htop]
  exact hsum _ _

/-- Rounding goes past the last rank from halfway to the one that would follow it, since the
    last rank is odd. -/
theorem rankCount_le_iff {k : ℕ} {r : ℚ}
    (h : RoundsTo (fun k => (units k : ℚ)) (r * unitsPerOne) k) :
    rankCount ≤ k ↔ overflowFrom ≤ r := by
  have hodd : (rankCount - 1) % 2 = 1 := by decide
  have hpast : rankCount ≤ k ↔ Past (fun k => (units k : ℚ)) (r * unitsPerOne) (rankCount - 1) := by
    rw [← h]
    exact ⟨fun hle => Nat.lt_of_lt_of_le (by decide) hle, fun hlt => Nat.le_of_pred_lt hlt⟩
  rw [hpast, Past, units_last_add_next, and_iff_left hodd, ← le_iff_lt_or_eq,
    mul_le_mul_iff_right₀ two_pos, mul_le_mul_iff_left₀ cast_unitsPerOne_pos]

end Binary64

namespace Decimal

open Binary64

variable {d d' : Decimal}

theorem value_nonneg (d : Decimal) : 0 ≤ d.value := by
  rw [value_eq]
  positivity

/-- A decimal is read by rounding its value to a rank. -/
theorem exists_roundsTo (negative : Bool) (d : Decimal) :
    ∃ k : ℕ, RoundsTo (fun k => (units k : ℚ)) (d.value * unitsPerOne) k ∧
      d.toBinary64 negative =
        if h : k < rankCount then .finite negative ⟨k, h⟩ else .infinite negative := by
  obtain ⟨n, k, hk, hnearest, hn⟩ := d.exists_nearest negative
  have hround := roundsTo_nearestRank n hk
  rw [hn, mul_div_cancel_right₀ _ (Nat.cast_pos.2 hk).ne'] at hround
  exact ⟨_, hround, hnearest⟩

/-- How a decimal is written does not matter. -/
theorem toBinary64_congr (h : d.value = d'.value) (negative : Bool) :
    d.toBinary64 negative = d'.toBinary64 negative := by
  obtain ⟨k, hk, hread⟩ := d.exists_roundsTo negative
  obtain ⟨k', hk', hread'⟩ := d'.exists_roundsTo negative
  rw [h] at hk
  obtain rfl := hk.eq hk'
  rw [hread, hread']

theorem toBinary64_eq_infinite (h : overflowFrom ≤ d.value) (negative : Bool) :
    d.toBinary64 negative = .infinite negative := by
  obtain ⟨k, hk, hread⟩ := d.exists_roundsTo negative
  rw [hread, dif_neg (Nat.not_lt.2 ((rankCount_le_iff hk).2 h))]

theorem isNearest_toBinary64 (h : d.value < overflowFrom) :
    ∃ k, d.toBinary64 false = .finite false k ∧ (finite false k).IsNearest d.value := by
  obtain ⟨k, hk, hread⟩ := d.exists_roundsTo false
  have hlt : k < rankCount := Nat.lt_of_not_le fun hle =>
    h.not_ge ((rankCount_le_iff hk).1 hle)
  exact ⟨⟨k, hlt⟩, by rw [hread, dif_pos hlt], isNearest_of_roundsTo d.value_nonneg hk⟩

/-- Larger decimals are not read as smaller numbers. -/
theorem value_toBinary64_mono (h : d.value ≤ d'.value) {k k' : Rank}
    (hk : d.toBinary64 false = .finite false k) (hk' : d'.toBinary64 false = .finite false k') :
    (finite false k).value ≤ (finite false k').value := by
  obtain ⟨j, hj, hread⟩ := d.exists_roundsTo false
  obtain ⟨j', hj', hread'⟩ := d'.exists_roundsTo false
  rw [hread] at hk
  rw [hread'] at hk'
  split at hk
  · split at hk'
    · obtain rfl := (Binary64.finite.inj hk).2
      obtain rfl := (Binary64.finite.inj hk').2
      have hle : j ≤ j' :=
        hj.mono hj' (mul_le_mul_of_nonneg_right h cast_unitsPerOne_pos.le)
      rw [value_finite_false, value_finite_false, div_le_div_iff_of_pos_right cast_unitsPerOne_pos]
      exact cast_units_strictMono.monotone hle
    · exact absurd hk' nofun
  · exact absurd hk nofun

end Decimal

end Calculator
