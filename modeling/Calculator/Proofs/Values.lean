import Mathlib.Data.Rat.Floor
import Mathlib.Tactic.FieldSimp
import Mathlib.Tactic.Positivity
import Mathlib.Tactic.Ring
import Calculator.Proofs.Magnitudes

/-!
# Values

What finite numbers are worth. The value of a number is its magnitude with its sign
(`value_finite`), so whether it is zero, negative or an integer is said of its value: the two
zeros have the value zero (`isZero_iff`), and what is left of its units when they are counted
off in whole ones is its fractional part (`isInteger_iff`).
-/

namespace Calculator

attribute [local instance (2000)] instPowNat

namespace Binary64

/-- Whether a number has a minus, be it a zero. -/
def isSigned : Binary64 → Bool
  | nan => false
  | infinite s => s
  | finite s _ => s

/-- Whether the last bit of the significand of a finite number is zero. -/
def isEven : Binary64 → Bool
  | finite _ k => significand k % 2 == 0
  | _ => false

theorem cast_unitsPerOne_pos : (0 : ℚ) < unitsPerOne := Nat.cast_pos.2 unitsPerOne_pos

/-- A value is a magnitude with a sign. -/
theorem value_finite (s : Bool) (k : Rank) :
    (finite s k).value = (if s then -1 else 1) * (units k / unitsPerOne : ℚ) :=
  mul_div_assoc _ _ _

theorem value_finite_false (k : Rank) : (finite false k).value = units k / unitsPerOne := by
  rw [value_finite, if_neg Bool.false_ne_true, one_mul]

theorem value_finite_true (k : Rank) : (finite true k).value = -(units k / unitsPerOne : ℚ) := by
  rw [value_finite, if_pos rfl, neg_one_mul]

theorem abs_value_finite (s : Bool) (k : Rank) :
    |(finite s k).value| = units k / unitsPerOne := by
  have hnonneg : (0 : ℚ) ≤ units k / unitsPerOne := by positivity
  cases s with
  | false => rw [value_finite_false, abs_of_nonneg hnonneg]
  | true => rw [value_finite_true, abs_neg, abs_of_nonneg hnonneg]

theorem units_eq_zero_iff {k : ℕ} : units k = 0 ↔ k = 0 := by
  constructor
  · exact fun h => by_contra fun hk => Nat.ne_of_gt (units_pos hk) h
  · rintro rfl
    rfl

/-- The rank zero is that of the value zero. -/
theorem value_eq_zero_iff {s : Bool} {k : Rank} : (finite s k).value = 0 ↔ k.val = 0 := by
  rw [← abs_eq_zero, abs_value_finite, div_eq_zero_iff, or_iff_left cast_unitsPerOne_pos.ne',
    Nat.cast_eq_zero, units_eq_zero_iff]

variable {x : Binary64} (hx : x.isFinite = true)
include hx

theorem exists_eq_finite : ∃ s k, x = finite s k := by
  cases x with
  | finite s k => exact ⟨s, k, rfl⟩
  | nan | infinite s => exact absurd hx Bool.false_ne_true

theorem isZero_iff : x.isZero = true ↔ x.value = 0 := by
  obtain ⟨s, k, rfl⟩ := exists_eq_finite hx
  rw [value_eq_zero_iff, isZero, beq_iff_eq]

/-- The sign of a number that is no zero is that of its value. -/
theorem isNegative_iff : x.isNegative = true ↔ x.value < 0 := by
  obtain ⟨s, k, rfl⟩ := exists_eq_finite hx
  have hnonneg : (0 : ℚ) ≤ units k / unitsPerOne := by positivity
  have hzero := value_eq_zero_iff (s := s) (k := k)
  rw [isNegative, Bool.and_eq_true, bne_iff_ne, Ne, ← hzero]
  cases s with
  | false =>
    rw [value_finite_false]
    exact ⟨fun h => absurd h.1 Bool.false_ne_true, fun h => absurd h hnonneg.not_gt⟩
  | true =>
    rw [value_finite_true]
    exact ⟨fun h => lt_of_le_of_ne (neg_nonpos.2 hnonneg) h.2, fun h => ⟨rfl, h.ne⟩⟩

/-- A number without fractional part has an integer for its value. -/
theorem isInteger_iff : x.isInteger = true ↔ ∃ n : ℤ, x.value = n := by
  obtain ⟨s, k, rfl⟩ := exists_eq_finite hx
  rw [isInteger, beq_iff_eq]
  constructor
  · intro h
    obtain ⟨q, hq⟩ := Nat.dvd_of_mod_eq_zero h
    refine ⟨(if s then -1 else 1) * q, ?_⟩
    rw [value_finite, hq, Nat.cast_mul, mul_div_cancel_left₀ _ cast_unitsPerOne_pos.ne']
    cases s <;> simp
  · rintro ⟨n, hn⟩
    have habs := abs_value_finite s k
    rw [hn, eq_div_iff cast_unitsPerOne_pos.ne', ← Int.cast_abs, ← Int.natCast_natAbs,
      Int.cast_natCast] at habs
    have hunits : n.natAbs * unitsPerOne = units k := by exact_mod_cast habs
    rw [← hunits, Nat.mul_mod_left]

end Binary64

end Calculator
