import Calculator.Proofs.Faults
import Calculator.Proofs.Operations
import Calculator.Proofs.Values

/-!
# Which powers fail

On finite operands a machine tells that there is no power by its result: it is a NaN, or an
infinity where the base is a zero. On a machine whose power is that of the standard
(`Elementary.StandardPower`) this is so exactly if the operands have no real power
(`undefinedPower_iff_pow`), and every other infinity is one of a power that is too large. So
the faults of a power are told from its operands alone, but for the size of the result
(`power_classified`). Operands that are not both finite always have a power.
-/

namespace Calculator

/-- The power of the machine is that of the standard where the standard says what it is on
    finite operands, and it is a number wherever there is one. -/
structure Elementary.StandardPower (m : Elementary) : Prop where
  exponent_zero : ∀ x s, m.pow x (.zero s) = .one
  zero_positive : ∀ s y, y.isFinite = true → y.isPositive = true →
    m.pow (.zero s) y = .zero (s && y.isOddInteger)
  /-- The power has a pole at zero. -/
  zero_negative : ∀ s y, y.isFinite = true → y.isNegative = true →
    m.pow (.zero s) y = .infinite (s && y.isOddInteger)
  negative_fraction : ∀ x y, x.isFinite = true → x.isNegative = true → y.isFinite = true →
    y.isInteger = false → m.pow x y = .nan
  isNaN : ∀ x y, x.isFinite = true → y.isFinite = true → (m.pow x y).isNaN = true →
    x.isNegative = true ∧ y.isInteger = false

/-- There is no real power: a zero has none to a negative exponent, and a negative number
    has none to an exponent that is no integer. -/
def UndefinedPower (base exponent : Binary64) : Prop :=
  base.value = 0 ∧ exponent.value < 0 ∨ base.value < 0 ∧ ∀ n : ℤ, exponent.value ≠ n

namespace Binary64

variable {x : Binary64} (hx : x.isFinite = true)
include hx

theorem exists_eq_zero (hzero : x.isZero = true) : ∃ s, x = zero s := by
  obtain ⟨s, k, rfl⟩ := exists_eq_finite hx
  rw [isZero, beq_iff_eq] at hzero
  exact ⟨s, congrArg (finite s) (Fin.ext hzero)⟩

theorem isPositive_of_not (hzero : x.isZero = false) (hneg : x.isNegative = false) :
    x.isPositive = true := by
  obtain ⟨s, k, rfl⟩ := exists_eq_finite hx
  cases s <;> simp_all [isZero, isNegative, isPositive]

end Binary64

open Binary64

section

variable {m : Elementary} {base exponent : Binary64}

theorem undefinedPower_iff (hb : base.isFinite = true) (he : exponent.isFinite = true) :
    UndefinedPower base exponent ↔
      base.isZero = true ∧ exponent.isNegative = true ∨
        base.isNegative = true ∧ exponent.isInteger = false := by
  rw [UndefinedPower, isZero_iff hb, isNegative_iff hb, isNegative_iff he, ← Bool.not_eq_true,
    isInteger_iff he, not_exists]

variable (hm : m.StandardPower) (hb : base.isFinite = true) (he : exponent.isFinite = true)
include hm hb he

/-- A power of finite operands is undefined if it is a NaN, and if it is an infinity at zero. -/
theorem undefinedPower_iff_pow :
    UndefinedPower base exponent ↔ (m.pow base exponent).isNaN = true ∨
      (m.pow base exponent).isInfinite = true ∧ base.isZero = true := by
  rw [undefinedPower_iff hb he]
  constructor
  · rintro (⟨hzero, hneg⟩ | ⟨hneg, hint⟩)
    · obtain ⟨s, rfl⟩ := exists_eq_zero hb hzero
      rw [hm.zero_negative s exponent he hneg]
      exact .inr ⟨rfl, hzero⟩
    · rw [hm.negative_fraction base exponent hb hneg he hint]
      exact .inl rfl
  · rintro (hnan | ⟨hinf, hzero⟩)
    · exact .inr (hm.isNaN base exponent hb he hnan)
    · -- At zero, the power is finite for the exponents that are not negative.
      refine .inl ⟨hzero, ?_⟩
      obtain ⟨s, rfl⟩ := exists_eq_zero hb hzero
      by_contra hneg
      rw [Bool.not_eq_true] at hneg
      cases hez : exponent.isZero with
      | true =>
        obtain ⟨t, rfl⟩ := exists_eq_zero he hez
        rw [hm.exponent_zero] at hinf
        exact absurd hinf Bool.false_ne_true
      | false =>
        rw [hm.zero_positive s exponent he (isPositive_of_not he hez hneg)] at hinf
        exact absurd hinf Bool.false_ne_true

open Classical in
/-- What becomes of a power of finite operands. -/
theorem power_of_isFinite :
    power m base exponent =
      if UndefinedPower base exponent then .error (.undefinedPower base exponent)
      else if (m.pow base exponent).isInfinite = true then .error .overflow
      else .ok (m.pow base exponent) := by
  have hiff := undefinedPower_iff_pow hm hb he
  rw [power, hb, he, Bool.and_self, if_pos rfl]
  dsimp only
  by_cases hnan : (m.pow base exponent).isNaN = true
  · rw [if_pos hnan, if_pos (hiff.2 (.inl hnan))]
  · rw [if_neg hnan]
    by_cases hinf : (m.pow base exponent).isInfinite = true
    · by_cases hzero : base.isZero = true
      · rw [if_pos hinf, if_pos hzero, if_pos (hiff.2 (.inr ⟨hinf, hzero⟩))]
      · have hdefined : ¬UndefinedPower base exponent := fun h =>
          (hiff.1 h).elim hnan fun h => hzero h.2
        rw [if_pos hinf, if_neg hzero, if_neg hdefined, if_pos hinf]
    · have hdefined : ¬UndefinedPower base exponent := fun h =>
        (hiff.1 h).elim hnan fun h => hinf h.1
      rw [if_neg hinf, if_neg hdefined, if_neg hinf]

end

/-- A power fails exactly if its operands are finite and it is undefined, or is defined but too
    large; otherwise it has a value, which is finite for finite operands. -/
theorem power_classified (m : Elementary) (hm : m.StandardPower) (base exponent : Binary64) :
    let onFinite := base.isFinite = true ∧ exponent.isFinite = true
    let overflows := ¬UndefinedPower base exponent ∧ (m.pow base exponent).isInfinite = true
    (power m base exponent = .error (.undefinedPower base exponent) ↔
        onFinite ∧ UndefinedPower base exponent) ∧
      (power m base exponent = .error .overflow ↔ onFinite ∧ overflows) ∧
      ((∃ x, power m base exponent = .ok x) ↔
        ¬(onFinite ∧ UndefinedPower base exponent) ∧ ¬(onFinite ∧ overflows)) ∧
      (onFinite → ∀ x, power m base exponent = .ok x → x.isFinite = true) := by
  intro onFinite overflows
  by_cases hfinite : onFinite
  · rw [power_of_isFinite hm hfinite.1 hfinite.2]
    by_cases hundefined : UndefinedPower base exponent
    · simp [hfinite, hundefined, overflows]
    · by_cases hinf : (m.pow base exponent).isInfinite = true
      · simp [hfinite, hundefined, hinf, overflows]
      · have hvalue (x : Binary64) (h : m.pow base exponent = x) : x.isFinite = true :=
          isFinite_of_power hfinite.1 hfinite.2 (m := m) (x := base) (y := exponent) (by
            rw [power_of_isFinite hm hfinite.1 hfinite.2, if_neg hundefined, if_neg hinf, h])
        simpa [hfinite, hundefined, hinf, overflows] using hvalue _ rfl
  · have hlimit : power m base exponent = .ok (limitPower base exponent) := by
      rw [power, if_neg]
      simpa [onFinite] using hfinite
    simp [hlimit, hfinite]

/-! ## Powers of whole exponents -/

/-- The power with an integer for its exponent, rounded once, and the power of operands for
    which the standard says what it is. A positive base has the power one otherwise. -/
def wholePower : Binary64 → Binary64 → Binary64
  | .finite s j, .finite t k =>
    let negative := s && (Binary64.finite t k).isOddInteger
    if k.val = 0 then .one
    else if j.val = 0 then
      if t then .infinite negative else .zero negative
    else if (Binary64.finite t k).isInteger then
      let n := units k / unitsPerOne
      if t then .nearest negative (unitsPerOne ^ (n + 1)) (units j ^ n)
      else .nearest negative (units j ^ n * unitsPerOne) (unitsPerOne ^ n)
    else if s then .nan
    else .one
  | x, y => limitPower x y

/-- A machine that knows powers of whole exponents. -/
def Elementary.whole : Elementary := { plain with pow := wholePower }

theorem Elementary.whole_standardPower : whole.StandardPower where
  exponent_zero x s := by cases x <;> rfl
  zero_positive s y hy hpos := by
    obtain ⟨t, k, rfl⟩ := exists_eq_finite hy
    obtain ⟨ht, hk⟩ : t = false ∧ k.val ≠ 0 := by simpa [isPositive] using hpos
    subst ht
    exact if_neg hk
  zero_negative s y hy hneg := by
    obtain ⟨t, k, rfl⟩ := exists_eq_finite hy
    obtain ⟨ht, hk⟩ : t = true ∧ k.val ≠ 0 := by simpa [isNegative] using hneg
    subst ht
    exact if_neg hk
  negative_fraction x y hx hneg hy hint := by
    obtain ⟨s, j, rfl⟩ := exists_eq_finite hx
    obtain ⟨t, k, rfl⟩ := exists_eq_finite hy
    obtain ⟨hs, hj⟩ : s = true ∧ j.val ≠ 0 := by simpa [isNegative] using hneg
    have hk : k.val ≠ 0 := by
      intro hk
      rw [isInteger, hk, units_eq_zero_iff.2 rfl, Nat.zero_mod] at hint
      exact Bool.false_ne_true hint.symm
    show wholePower (.finite s j) (.finite t k) = _
    rw [wholePower, if_neg hk, if_neg hj, if_neg (by rw [hint]; exact Bool.false_ne_true), if_pos hs]
  isNaN x y hx hy hnan := by
    obtain ⟨s, j, rfl⟩ := exists_eq_finite hx
    obtain ⟨t, k, rfl⟩ := exists_eq_finite hy
    revert hnan
    show (wholePower (.finite s j) (.finite t k)).isNaN = true → _
    -- Only the last case but one is a NaN.
    rw [wholePower]
    split
    · exact fun h => absurd h Bool.false_ne_true
    · split
      · split <;> exact fun h => absurd h Bool.false_ne_true
      · rename_i hk hj
        split
        · dsimp only
          split <;> rw [isNaN_nearest] <;> exact fun h => absurd h Bool.false_ne_true
        · rename_i hint
          cases s with
          | false => exact fun h => absurd h Bool.false_ne_true
          | true => exact fun _ => ⟨by simpa [isNegative] using hj, by simpa using hint⟩

/-- Minus two has no square root, a zero no inverse cube, and the square of `2 ^ 512` is too
    large; but the cube of minus two is a number. -/
theorem power_classified_minusTwo :
    let two (negative : Bool) : Binary64 := .finite negative ⟨1024 * binade, by decide⟩
    let half : Binary64 := .finite false ⟨1022 * binade, by decide⟩
    let three (negative : Bool) : Binary64 :=
      .finite negative ⟨1024 * binade + binade / 2, by decide⟩
    let large : Binary64 := .finite false ⟨1535 * binade, by decide⟩
    Elementary.whole.StandardPower ∧
      power .whole (two true) half = .error (.undefinedPower (two true) half) ∧
      power .whole (.zero true) (three true) =
        .error (.undefinedPower (.zero true) (three true)) ∧
      power .whole large (two false) = .error .overflow ∧
      ∃ x, power .whole (two true) (three false) = .ok x ∧ x.isFinite = true := by
  intro two half three large
  have hundefined {x y : Binary64} (hx : x.isFinite = true) (hy : y.isFinite = true)
      (h : x.isZero = true ∧ y.isNegative = true ∨ x.isNegative = true ∧ y.isInteger = false) :
      power .whole x y = .error (.undefinedPower x y) :=
    (power_classified .whole Elementary.whole_standardPower x y).1.2
      ⟨⟨hx, hy⟩, (undefinedPower_iff hx hy).2 h⟩
  have hdefined {x y : Binary64} (hx : x.isFinite = true) (hy : y.isFinite = true)
      (h : ¬(x.isZero = true ∧ y.isNegative = true ∨
        x.isNegative = true ∧ y.isInteger = false)) : ¬UndefinedPower x y := fun hpower =>
    h ((undefinedPower_iff hx hy).1 hpower)
  refine ⟨Elementary.whole_standardPower, hundefined rfl rfl (.inr (by decide +kernel)),
    hundefined rfl rfl (.inl (by decide +kernel)), ?_, ?_⟩
  · obtain ⟨_, hoverflow, _⟩ :=
      power_classified .whole Elementary.whole_standardPower large (two false)
    exact hoverflow.2 ⟨⟨rfl, rfl⟩, hdefined rfl rfl (by decide +kernel), by decide +kernel⟩
  · obtain ⟨_, _, hvalue, hfinite⟩ :=
      power_classified .whole Elementary.whole_standardPower (two true) (three false)
    have hcube : ¬UndefinedPower (two true) (three false) :=
      hdefined rfl rfl (by decide +kernel)
    have hsmall : ¬((Elementary.whole.pow (two true) (three false)).isInfinite = true) := by
      decide +kernel
    obtain ⟨x, hx⟩ := hvalue.2 ⟨fun h => hcube h.2, fun h => hsmall h.2.2⟩
    exact ⟨x, hx, hfinite ⟨rfl, rfl⟩ x hx⟩

end Calculator
