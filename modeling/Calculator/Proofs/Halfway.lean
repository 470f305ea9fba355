import Mathlib.Algebra.Order.Field.Basic
import Mathlib.Data.Rat.Cast.Order
import Mathlib.Order.Monotone.Basic
import Mathlib.Tactic.Linarith
import Calculator.Binary64.Nearest

/-!
# Rounding to the nearest point

Points in increasing order are counted off from zero upwards, like the multiples of a step or
the magnitudes of numbers. A value lies between two of them, and is rounded to the nearer one.
This is told from the halfways between neighbours: the value is rounded to the point that
follows those from which it is past halfway (`RoundsTo`). Right at the halfway, the parity of
the points decides.

What is rounded in this way is rounded to a point that is as near as any, and if another one is
as near, to the even one (`RoundsTo.nearest`); and larger values are not rounded to lower
points (`RoundsTo.mono`). A division that is rounded once does this for the naturals
(`roundsTo_roundDiv`).
-/

namespace Calculator

attribute [local instance (2000)] instPowNat

/-- A value is past halfway from a point to the next one. Right at the halfway, it counts
    as past if the point is odd. -/
def Past (f : ℕ → ℚ) (x : ℚ) (j : ℕ) : Prop :=
  f j + f (j + 1) < 2 * x ∨ f j + f (j + 1) = 2 * x ∧ j % 2 = 1

/-- A value is rounded to the point that follows those from which it is past halfway. -/
def RoundsTo (f : ℕ → ℚ) (x : ℚ) (k : ℕ) : Prop := ∀ j, j < k ↔ Past f x j

variable {f : ℕ → ℚ} {x y : ℚ} {k l : ℕ}

theorem Past.mono (h : x ≤ y) {j : ℕ} (hx : Past f x j) : Past f y j := by
  rcases hx with hlt | ⟨heq, hodd⟩
  · exact .inl (by linarith)
  · rcases lt_or_eq_of_le h with hlt | rfl
    · exact .inl (by linarith)
    · exact .inr ⟨heq, hodd⟩

namespace RoundsTo

/-- Larger values are not rounded to lower points. -/
theorem mono (hx : RoundsTo f x k) (hy : RoundsTo f y l) (h : x ≤ y) : k ≤ l := by
  by_contra hlt
  have hpast := ((hx l).1 (Nat.lt_of_not_le hlt)).mono h
  exact Nat.lt_irrefl l ((hy l).2 hpast)

/-- A value is rounded to one point only. -/
theorem eq (hk : RoundsTo f x k) (hl : RoundsTo f x l) : k = l :=
  Nat.le_antisymm (hk.mono hl le_rfl) (hl.mono hk le_rfl)

/-- Rounding does not depend on the scale. -/
theorem mul (h : RoundsTo f x k) {c : ℚ} (hc : 0 < c) :
    RoundsTo (fun j => f j * c) (x * c) k := by
  intro j
  rw [h j, Past, Past, ← add_mul, ← mul_assoc, mul_lt_mul_iff_left₀ hc, mul_left_inj' hc.ne']

/-- A point is rounded to itself. -/
theorem self (hf : StrictMono f) (k : ℕ) : RoundsTo f (f k) k := by
  intro j
  constructor
  · intro hj
    have hnext := hf.monotone (Nat.succ_le_of_lt hj)
    have hlt := hf hj
    exact .inl (by linarith)
  · intro hpast
    by_contra hj
    have hle := hf.monotone (Nat.le_of_not_lt hj)
    have hnext := hf (Nat.lt_succ_self j)
    rcases hpast with hlt | ⟨heq, _⟩ <;> linarith

end RoundsTo

/-- Of two points, a value that is past halfway between them is nearer to the upper one. -/
theorem abs_sub_le_of_add_le {a b x : ℚ} (hab : a < b) (h : a + b ≤ 2 * x) :
    |b - x| ≤ |a - x| ∧ (|a - x| = |b - x| → a + b = 2 * x) := by
  have ha : |a - x| = x - a := by rw [abs_sub_comm, abs_of_nonneg (by linarith)]
  rw [ha]
  refine ⟨abs_le.2 ⟨by linarith, by linarith⟩, fun htie => ?_⟩
  rcases abs_choice (b - x) with hb | hb <;> rw [hb] at htie <;> linarith

/-- Of two points, a value that is not past halfway between them is nearer to the lower one. -/
theorem abs_sub_le_of_le_add {a b x : ℚ} (hab : a < b) (h : 2 * x ≤ a + b) :
    |a - x| ≤ |b - x| ∧ (|b - x| = |a - x| → a + b = 2 * x) := by
  have hneg := abs_sub_le_of_add_le (a := -b) (b := -a) (x := -x) (by linarith) (by linarith)
  rw [← neg_add', ← neg_add', abs_neg, abs_neg, ← sub_eq_add_neg, ← sub_eq_add_neg] at hneg
  exact ⟨hneg.1, fun htie => by linarith [hneg.2 htie]⟩

/-- No point is nearer than the one to which a value is rounded; and if another one is as
    near, then it is the even one. -/
theorem RoundsTo.nearest (hf : StrictMono f) (h : RoundsTo f x k) (i : ℕ) :
    |f k - x| ≤ |f i - x| ∧ (|f i - x| = |f k - x| → i = k ∨ k % 2 = 0) := by
  rcases Nat.lt_trichotomy i k with hik | rfl | hki
  · -- The value is past halfway from the point before `k`.
    obtain ⟨j, rfl⟩ := Nat.exists_eq_add_one_of_ne_zero (Nat.ne_of_gt (Nat.zero_lt_of_lt hik))
    have hle := hf.monotone (Nat.le_of_lt_succ hik)
    have hpast := (h j).1 (Nat.lt_succ_self j)
    have hsum : f j + f (j + 1) ≤ 2 * x := hpast.elim le_of_lt fun h => le_of_eq h.1
    obtain ⟨hnear, htie⟩ := abs_sub_le_of_add_le (hf hik) (x := x) (by linarith)
    refine ⟨hnear, fun heq => .inr ?_⟩
    have hi := htie heq
    rcases hpast with hlt | ⟨_, hodd⟩
    · linarith
    · omega
  · exact ⟨le_rfl, fun _ => .inl rfl⟩
  · -- The value is not past halfway from `k`.
    have hle := hf.monotone (Nat.succ_le_of_lt hki)
    obtain ⟨hlt, heven⟩ := not_or.1 fun hpast => Nat.lt_irrefl k ((h k).2 hpast)
    have hsum := not_lt.1 hlt
    obtain ⟨hnear, htie⟩ := abs_sub_le_of_le_add (hf hki) (x := x) (by linarith)
    refine ⟨hnear, fun heq => .inr ?_⟩
    have hi := htie heq
    have hodd : ¬ k % 2 = 1 := fun hodd => heven ⟨by linarith, hodd⟩
    omega

/-! ## Rounded quotients -/

/-- A rounded quotient is past the naturals from which the quotient is past halfway. -/
theorem lt_roundDiv_iff {n d : ℕ} (hd : 0 < d) (j : ℕ) :
    j < roundDiv n d ↔
      (2 * j + 1) * d < 2 * n ∨ (2 * j + 1) * d = 2 * n ∧ j % 2 = 1 := by
  have hn := Nat.div_add_mod n d
  have hr := Nat.mod_lt n hd
  rw [Nat.mul_comm] at hn
  rw [roundDiv, Nat.add_mul, Nat.mul_assoc]
  simp only [Bool.or_eq_true, decide_eq_true_eq, Bool.and_eq_true, beq_iff_eq]
  rcases Nat.lt_trichotomy j (n / d) with hlt | rfl | hgt
  · have hstep := Nat.mul_le_mul_right d (Nat.succ_le_of_lt hlt)
    rw [Nat.succ_mul] at hstep
    split <;> omega
  · split <;> omega
  · have hstep := Nat.mul_le_mul_right d (Nat.succ_le_of_lt hgt)
    rw [Nat.succ_mul] at hstep
    split <;> omega

/-- Division with rounding is rounding to the nearest natural. -/
theorem roundsTo_roundDiv (n : ℕ) {d : ℕ} (hd : 0 < d) :
    RoundsTo (fun j => (j : ℚ)) (n / d) (roundDiv n d) := by
  intro j
  have hd' : (0 : ℚ) < d := Nat.cast_pos.2 hd
  rw [lt_roundDiv_iff hd, Past, ← mul_div_assoc, lt_div_iff₀ hd', eq_div_iff hd'.ne',
    ← Nat.cast_lt (α := ℚ), ← Nat.cast_inj (R := ℚ)]
  push_cast
  rw [two_mul, add_assoc]

end Calculator
