import Mathlib.Algebra.Order.Field.Basic
import Mathlib.Data.Rat.Cast.Order
import Mathlib.Order.Monotone.Basic
import Mathlib.Tactic.Linarith
import Mathlib.Tactic.NormNum
import Mathlib.Tactic.Positivity
import Calculator.Proofs.Halfway
import Calculator.Proofs.Nearest

/-!
# Magnitudes in order

The magnitudes of numbers increase with their ranks (`units_strictMono`), and the rank that is
found for a quotient is that of the nearest magnitude (`roundsTo_nearestRank`). In the binade
of a quotient the magnitudes are the multiples of a step, so there it is a rounded division;
and the multiples before and after the quotient are magnitudes also at the ends of the binade,
where the next one begins (`units_steps`).

A magnitude is found itself (`nearestRank_units`), however it is written as a significand in
steps (`exists_units_eq`).
-/

namespace Calculator

attribute [local instance (2000)] instPowNat

/-- The steps of a binade are counted from zero to the end of the binade, which is the first
    rank of the next. -/
theorem units_steps {m s : ℕ} (hlow : s = 0 ∨ binade ≤ m) (hhigh : m ≤ 2 * binade) :
    units (m + s * binade) = m * 2 ^ s := by
  rcases Nat.lt_or_eq_of_le hhigh with hlt | rfl
  · rcases hlow with rfl | hlow
    · rw [Nat.zero_mul, Nat.add_zero, Nat.pow_zero, Nat.mul_one, units_of_lt hlt]
    · exact units_add_mul m s hlow hlt
  · have hcarry : 2 * binade + s * binade = binade + (s + 1) * binade := by
      rw [Nat.add_mul s 1]
      omega
    rw [hcarry, units_add_mul _ _ le_rfl (by decide), Nat.pow_succ, Nat.mul_comm (2 ^ s),
      ← Nat.mul_assoc, Nat.mul_comm binade]

theorem units_lt_units_succ (k : ℕ) : units k < units (k + 1) := by
  obtain ⟨hk, hlt, hnormal⟩ := rank_eq k
  generalize significand k = m at *
  generalize doublings k = s at *
  have hnext : k + 1 = m + 1 + s * binade := by omega
  rw [hnext, hk, units_steps hnormal hlt.le, units_steps (hnormal.imp_right fun h => by omega) hlt]
  exact Nat.mul_lt_mul_of_pos_right (Nat.lt_succ_self m) (Nat.two_pow_pos s)

/-- Higher ranks are larger magnitudes. -/
theorem units_strictMono : StrictMono units := strictMono_nat_of_lt_succ units_lt_units_succ

theorem cast_units_strictMono : StrictMono fun k => (units k : ℚ) :=
  Nat.strictMono_cast.comp units_strictMono

/-- What has no more than the bits of a significand, in steps no larger than the last ones, is
    the magnitude of a number. -/
theorem exists_units_eq {q s : ℕ} (hq : q < 2 * binade) (hs : s ≤ lastDoublings) :
    ∃ rank : Rank, units rank = q * 2 ^ s := by
  induction s generalizing q with
  | zero =>
    have hrank : q < rankCount := Nat.lt_of_lt_of_le hq (by decide)
    exact ⟨⟨q, hrank⟩, (units_of_lt hq).trans (Nat.mul_one q).symm⟩
  | succ s ih =>
    by_cases hnormal : binade ≤ q
    · have hlast : lastDoublings = 2045 := rfl
      have hrank : q + (s + 1) * binade < rankCount := by
        have hle := Nat.mul_le_mul_right binade hs
        rw [hlast] at hle
        unfold rankCount
        omega
      exact ⟨⟨_, hrank⟩, units_steps (.inr hnormal) hq.le⟩
    · -- A small significand is doubled, and the steps are halved.
      obtain ⟨rank, hrank⟩ := ih (q := 2 * q) (by omega) (by omega)
      exact ⟨rank, by rw [hrank, Nat.pow_succ, Nat.mul_comm (2 ^ s), ← Nat.mul_assoc,
        Nat.mul_comm q]⟩

/-! ## The nearest rank -/

/-- In the binade of a quotient, its steps are those of a significand. -/
theorem steps_bounds (n d : ℕ) :
    let s := (n / d).log2 - 52
    (s = 0 ∨ binade ≤ n / (d * 2 ^ s)) ∧ n / (d * 2 ^ s) < 2 * binade := by
  dsimp only
  rw [← Nat.div_div_eq_div_mul]
  generalize n / d = q
  generalize hs : q.log2 - 52 = s
  have hbinade : 2 * binade = 2 ^ 53 := by decide
  constructor
  · by_cases hzero : s = 0
    · exact .inl hzero
    · have hq : q ≠ 0 := by
        rintro rfl
        exact hzero (hs.symm.trans (by decide))
      refine .inr ((Nat.le_div_iff_mul_le (Nat.two_pow_pos s)).2 ?_)
      rw [binade, ← Nat.pow_add, show 52 + s = q.log2 by omega]
      exact Nat.log2_self_le hq
  · refine Nat.div_lt_of_lt_mul (Nat.lt_of_lt_of_le Nat.lt_log2_self ?_)
    rw [hbinade, ← Nat.pow_add]
    exact Nat.pow_le_pow_right Nat.two_pos (by omega)

/-- Rounding a quotient goes past the ranks from whose magnitudes it is past halfway. -/
theorem lt_nearestRank_iff {n d : ℕ} (hd : 0 < d) (j : ℕ) :
    j < nearestRank n d ↔ (units j + units (j + 1)) * d < 2 * n ∨
      (units j + units (j + 1)) * d = 2 * n ∧ j % 2 = 1 := by
  obtain ⟨hlow, hhigh⟩ := steps_bounds n d
  rw [nearestRank]
  generalize (n / d).log2 - 52 = s at *
  have hstep : 0 < d * 2 ^ s := Nat.mul_pos hd (Nat.two_pow_pos s)
  have hn := Nat.div_add_mod n (d * 2 ^ s)
  have hmod := Nat.mod_lt n hstep
  generalize hq : n / (d * 2 ^ s) = q at *
  -- The quotient lies between the magnitudes of two neighbours.
  have hcomm (k : ℕ) : k * 2 ^ s * d = d * 2 ^ s * k := by
    rw [Nat.mul_assoc, Nat.mul_comm k, Nat.mul_comm d]
  have hbelow : units (q + s * binade) * d = d * 2 ^ s * q := by
    rw [units_steps hlow hhigh.le, hcomm]
  have habove : units (q + s * binade + 1) * d = d * 2 ^ s * q + d * 2 ^ s := by
    rw [Nat.add_right_comm, units_steps (hlow.imp_right fun h => by omega) hhigh, hcomm,
      Nat.mul_succ]
  have hround : roundDiv n (d * 2 ^ s) = q ∨ roundDiv n (d * 2 ^ s) = q + 1 := by
    rw [← hq]
    exact roundDiv_eq_or n _
  rw [Nat.add_mul]
  rcases Nat.lt_trichotomy j (q + s * binade) with hlt | rfl | hgt
  · have hj := Nat.mul_lt_mul_of_pos_right (units_lt_units_succ j) hd
    have hnext := Nat.mul_le_mul_right d (units_strictMono.monotone (a := j + 1) hlt)
    omega
  · have hiff := lt_roundDiv_iff (n := n) hstep q
    have heven : (q + s * binade) % 2 = q % 2 := by
      rw [binade, Nat.pow_succ, ← Nat.mul_assoc, Nat.add_mul_mod_self_right]
    have hsum : (2 * q + 1) * (d * 2 ^ s) = d * 2 ^ s * q + (d * 2 ^ s * q + d * 2 ^ s) := by
      rw [Nat.add_mul, Nat.mul_assoc, Nat.mul_comm q]
      omega
    rw [hbelow, habove, heven, ← hsum, ← hiff, Nat.add_lt_add_iff_right]
  · have hj := Nat.mul_lt_mul_of_pos_right (units_lt_units_succ j) hd
    have hnext := Nat.mul_le_mul_right d
      (units_strictMono.monotone (a := q + s * binade + 1) hgt)
    omega

/-- The nearest rank is that of the nearest magnitude. -/
theorem roundsTo_nearestRank (n : ℕ) {d : ℕ} (hd : 0 < d) :
    RoundsTo (fun k => (units k : ℚ)) (n / d) (nearestRank n d) := by
  intro j
  have hd' : (0 : ℚ) < d := Nat.cast_pos.2 hd
  rw [lt_nearestRank_iff hd, Past, ← mul_div_assoc, lt_div_iff₀ hd', eq_div_iff hd'.ne',
    ← Nat.cast_lt (α := ℚ), ← Nat.cast_inj (R := ℚ)]
  push_cast
  rfl

/-- The rank of a magnitude is found. -/
theorem nearestRank_units (k : ℕ) : nearestRank (units k) 1 = k := by
  have hround := roundsTo_nearestRank (units k) Nat.one_pos
  rw [Nat.cast_one, div_one] at hround
  exact hround.eq (.self cast_units_strictMono k)

end Calculator
