import Mathlib.Tactic.LinearCombination
import Calculator.Proofs.Levels
import Calculator.Proofs.Values

/-!
# Remainders

The remainder of two finite numbers is exact (`modulo_truncated`), however far apart they are.
In units it is a remainder of naturals, and what has to be seen is that this is the magnitude
of a number (`exists_units_mod`): it is a multiple of the smaller one of the steps of the
operands, and of these steps there are no more in it than in the operand that has them, since a
remainder is neither larger than the dividend nor as large as the divisor.
-/

namespace Calculator

attribute [local instance (2000)] instPowNat

/-- The integer between a rational and zero that is next to the rational. -/
def truncate (q : ℚ) : ℤ := if q < 0 then ⌈q⌉ else ⌊q⌋

theorem truncate_natCast_div (n d : ℕ) : truncate (n / d : ℚ) = (n / d : ℕ) := by
  have hnonneg : (0 : ℚ) ≤ n / d := by positivity
  rw [truncate, if_neg hnonneg.not_gt, Rat.floor_natCast_div_natCast, Int.natCast_div]

theorem truncate_neg (q : ℚ) : truncate (-q) = -truncate q := by
  rw [truncate, truncate]
  rcases lt_trichotomy q 0 with hlt | rfl | hgt
  · rw [if_pos hlt, if_neg (neg_pos.2 hlt).not_gt, Int.floor_neg]
  · simp
  · rw [if_neg hgt.not_gt, if_pos (neg_neg_iff_pos.2 hgt), Int.ceil_neg]

theorem doublings_le_last (rank : Rank) : doublings rank ≤ lastDoublings := by
  have hrank : rank.val < 2047 * binade := rank.isLt
  have hlast : lastDoublings = 2045 := rfl
  rw [doublings]
  unfold binade at hrank ⊢
  omega

/-- What is left of a magnitude is one. -/
theorem exists_units_mod (a b : Rank) (hb : b.val ≠ 0) :
    ∃ rank : Rank, units rank = units a % units b := by
  obtain ⟨_, ha, _⟩ := rank_eq a
  obtain ⟨_, hb', _⟩ := rank_eq b
  have hpos := units_pos hb
  have hlastA := doublings_le_last a
  have hlastB := doublings_le_last b
  rw [units] at hpos
  rw [units, units]
  have hsignificand := Nat.pos_of_mul_pos_right hpos
  generalize significand a = m at *
  generalize significand b = n at *
  generalize doublings a = s at *
  generalize doublings b = t at *
  rcases Nat.le_total t s with hts | hst
  · -- The dividend is a multiple of the steps of the divisor.
    obtain ⟨u, rfl⟩ := Nat.exists_eq_add_of_le hts
    have hmod : m * 2 ^ (t + u) % (n * 2 ^ t) = m * 2 ^ u % n * 2 ^ t := by
      rw [Nat.pow_add, Nat.mul_comm (2 ^ t), ← Nat.mul_assoc, Nat.mul_mod_mul_right]
    rw [hmod]
    exact exists_units_eq ((Nat.mod_lt _ hsignificand).trans hb') hlastB
  · -- The divisor is a multiple of the steps of the dividend.
    obtain ⟨u, rfl⟩ := Nat.exists_eq_add_of_le hst
    have hmod : m * 2 ^ s % (n * 2 ^ (s + u)) = m % (n * 2 ^ u) * 2 ^ s := by
      rw [Nat.pow_add, Nat.mul_comm (2 ^ s), ← Nat.mul_assoc, Nat.mul_mod_mul_right]
    rw [hmod]
    exact exists_units_eq ((Nat.mod_le _ _).trans_lt ha) hlastA

namespace Binary64

theorem nearest_units (negative : Bool) (k : Rank) :
    nearest negative (units k) 1 = finite negative k := by
  have hrank := nearestRank_units k
  rw [nearest, dif_pos (by rw [hrank]; exact k.isLt)]
  exact congrArg (finite negative) (Fin.ext hrank)

/-- The remainder of finite numbers is that of their units, with the sign of the dividend. -/
theorem exists_mod_eq (s t : Bool) (a b : Rank) (hb : b.val ≠ 0) :
    ∃ rank : Rank, finite s a % finite t b = finite s rank ∧
      units rank = units a % units b := by
  obtain ⟨rank, hrank⟩ := exists_units_mod a b hb
  refine ⟨rank, ?_, hrank⟩
  show fmod (finite s a) (finite t b) = _
  rw [fmod, if_neg hb, ← hrank, nearest_units]

/-- The quotient of values is that of units, with both signs. -/
theorem truncate_value_div (s t : Bool) (a b : Rank) :
    truncate ((finite s a).value / (finite t b).value) =
      (if s = t then 1 else -1) * (units a / units b : ℕ) := by
  have hunits : (finite s a).value / (finite t b).value =
      (if s = t then 1 else -1) * (units a / units b : ℚ) := by
    have hne := cast_unitsPerOne_pos.ne'
    cases s <;> cases t <;>
      simp only [value_finite_false, value_finite_true, div_neg, neg_div,
        div_div_div_cancel_right₀ hne] <;> simp
  rw [hunits, ← truncate_natCast_div]
  split
  · rw [one_mul, one_mul]
  · rw [neg_one_mul, neg_one_mul, truncate_neg]

/-- The remainder of finite numbers, as values. -/
theorem exists_mod_value {x y : Binary64} (hx : x.isFinite = true) (hy : y.isFinite = true)
    (hzero : y.isZero = false) :
    ∃ r, x % y = r ∧ r.isFinite = true ∧ r.isSigned = x.isSigned ∧
      r.value = x.value - truncate (x.value / y.value) * y.value ∧
      |r.value| < |y.value| ∧ |r.value| ≤ |x.value| := by
  obtain ⟨s, a, rfl⟩ := exists_eq_finite hx
  obtain ⟨t, b, rfl⟩ := exists_eq_finite hy
  have hb : b.val ≠ 0 := by simpa [isZero] using hzero
  obtain ⟨rank, hmod, hunits⟩ := exists_mod_eq s t a b hb
  have hpos := cast_unitsPerOne_pos
  refine ⟨_, hmod, rfl, rfl, ?_, ?_, ?_⟩
  · have hdivision : (units a : ℚ) = units b * (units a / units b : ℕ) + units rank := by
      rw [hunits]
      exact_mod_cast (Nat.div_add_mod (units a) (units b)).symm
    -- The sign of the divisor is taken off with that of the quotient.
    have hsigns (u v w o : ℚ) (q : ℕ) (h : u = v * q + w) :
        (if s then -1 else 1) * (w / o) = (if s then -1 else 1) * (u / o) -
          ((if s = t then 1 else -1) * q : ℤ) * ((if t then -1 else 1) * (v / o)) := by
      subst h
      cases s <;> cases t <;> simp <;> ring
    rw [truncate_value_div, value_finite, value_finite, value_finite]
    exact hsigns _ _ _ _ _ hdivision
  · rw [abs_value_finite, abs_value_finite, div_lt_div_iff_of_pos_right hpos, hunits]
    exact_mod_cast Nat.mod_lt _ (units_pos hb)
  · rw [abs_value_finite, abs_value_finite, div_le_div_iff_of_pos_right hpos, hunits]
    exact_mod_cast Nat.mod_le _ _

end Binary64

open Binary64 Reader

/-- A remainder has a value, unless the dividend is infinite or the divisor zero and the other
    operand is a number. -/
theorem modulo_eq_error_iff {x y : Binary64} :
    (∃ fault, modulo x y = .error fault) ↔
      x.isInfinite = true ∧ y.isNaN = false ∨ y.isZero = true ∧ x.isNaN = false := by
  rw [modulo]
  split
  · rename_i h
    simpa using h
  · rename_i h
    simpa using h

/-- What a chain of factors does at a `%`. A zero divisor is refused there. -/
theorem run_chainTail_percent (m : Elementary) (frames : Nat) {x y : Binary64} {c c' : Cursor}
    (hnext : c.pastBlanks.rest.head? = some '%')
    (hy : (read m .factor frames).run (c.pastBlanks.forward 1) = .ok y c') :
    (chainTail Operator.multiplicative? (read m .factor frames) x).run c =
      if y.isZero = true then .error ⟨.moduloByZero, c.pastBlanks.offset⟩ c'
      else (valueAt c.pastBlanks.offset (modulo x y >>= checkFinite) >>=
        chainTail Operator.multiplicative? (read m .factor frames)).run c' := by
  have hoperator : c.pastBlanks.rest.head?.bind Operator.multiplicative? = some .mod := by
    rw [hnext]
    rfl
  rw [run_chainTail (progresses_read m frames .factor), hoperator]
  dsimp only
  rw [chainLink, bind_assoc, run_bind_of_ok hy, Operator.apply, Operator.result]
  split
  · rfl
  · rfl

/-- The remainder of finite numbers is what is left of the dividend without the truncated
    quotient of divisors: exactly, with the sign of the dividend, and smaller than either
    operand allows. A remainder fails only for an infinite dividend or a zero divisor. Between
    factors a zero divisor has a fault of its own, before any remainder is taken. -/
theorem modulo_truncated (m : Elementary) (frames : Nat) (x y : Binary64) :
    (x.isFinite = true → y.isFinite = true → y.isZero = false →
      ∃ r, modulo x y = .ok r ∧ r.isFinite = true ∧ r.isSigned = x.isSigned ∧
        r.value = x.value - truncate (x.value / y.value) * y.value ∧
        |r.value| < |y.value| ∧ |r.value| ≤ |x.value|) ∧
    ((∃ fault, modulo x y = .error fault) ↔
      x.isInfinite = true ∧ y.isNaN = false ∨ y.isZero = true ∧ x.isNaN = false) ∧
    (∀ fault, modulo x y = .error fault → fault.kind = .domainError) ∧
    ∀ c c' : Cursor, c.pastBlanks.rest.head? = some '%' →
      (read m .factor frames).run (c.pastBlanks.forward 1) = .ok y c' →
      (chainTail Operator.multiplicative? (read m .factor frames) x).run c =
        if y.isZero = true then .error ⟨.moduloByZero, c.pastBlanks.offset⟩ c'
        else (valueAt c.pastBlanks.offset (modulo x y >>= checkFinite) >>=
          chainTail Operator.multiplicative? (read m .factor frames)).run c' := by
  refine ⟨fun hx hy hzero => ?_, modulo_eq_error_iff, fun fault hfault => ?_,
    fun c c' hnext hy => run_chainTail_percent m frames hnext hy⟩
  · obtain ⟨r, hr, hfinite, hsign, hvalue⟩ := exists_mod_value hx hy hzero
    have hmodulo : modulo x y = .ok (x % y) := by
      rw [modulo, isInfinite_eq_false hx, hzero, if_neg (by simp)]
    exact ⟨r, by rw [hmodulo, hr], hfinite, hsign, hvalue⟩
  · rw [modulo] at hfault
    split at hfault
    · rw [← Except.error.inj hfault]
      rfl
    · cases hfault

/-- Minus `2 ^ 1023` and three times the least magnitude are as far apart as can be, and minus
    two of the least magnitude are left. After a `%`, a negative zero is refused where the `%`
    stands. -/
theorem modulo_truncated_far :
    let x : Binary64 := .finite true ⟨2046 * binade, by decide⟩
    let y : Binary64 := .finite false ⟨3, by decide⟩
    (∃ r, modulo x y = .ok r ∧ r.isSigned = true ∧
      r.value = x.value - truncate (x.value / y.value) * y.value ∧ |r.value| < |y.value|) ∧
    (chainTail Operator.multiplicative? (read .plain .factor 3) x).run ⟨1, " % -0".toList⟩ =
      .error ⟨.moduloByZero, 2⟩ ⟨6, []⟩ := by
  intro x y
  constructor
  · obtain ⟨r, hr, _, hsign, hvalue, hlt, _⟩ := (modulo_truncated .plain 3 x y).1 rfl rfl rfl
    exact ⟨r, hr, hsign, hvalue, hlt⟩
  · obtain ⟨_, _, _, hterm⟩ := modulo_truncated .plain 3 x (.zero true)
    exact hterm ⟨1, " % -0".toList⟩ ⟨6, []⟩ (by decide +kernel)
      (valueOf?_eq_some_iff.1 (by decide +kernel))

end Calculator
