import Calculator.Proofs.Halfway
import Calculator.Proofs.Values
import Calculator.Proofs.WrittenNumbers

/-!
# Significant digits

The positive decimals of `p` significant digits (`Significant`) go on from one power of ten to
the next, with a step ten times as large. A decimal is rounded to the nearest of them
(`Decimal.exists_isNearest`), and there is only one (`Significant.IsNearest.eq`). Only the ones
with its own power of ten and above matter, and these are multiples of one step; what is rounded
up to the next power of ten is a decimal of `p` digits again.

So results are printed: as the nearest decimal of the digits that are asked for, in the form
that suits its first digit (`Binary64.format_rounded`).
-/

namespace Calculator

attribute [local instance (2000)] instPowNat

/-- A positive decimal of `p` digits, the first of them not zero and at `10 ^ magnitude`. -/
structure Significant (p : ℕ) where
  coefficient : ℕ
  magnitude : ℤ
  low : 10 ^ (p - 1) ≤ coefficient
  high : coefficient < 10 ^ p

/-- A power of ten as the multiple of a lower one. -/
theorem pow_mul_zpow {a b : ℤ} {k : ℕ} (h : k + a = b) :
    ((10 ^ k : ℕ) : ℚ) * 10 ^ a = 10 ^ b := by
  rw [Nat.cast_pow, Nat.cast_ofNat, ← zpow_natCast, ← zpow_add₀ (by norm_num), h]

/-- A power of ten is not above a value that is below the next one of another. -/
theorem magnitude_le {a b : ℤ} {v : ℚ} (ha : (10 : ℚ) ^ a ≤ v) (hb : v < 10 ^ (b + 1)) : a ≤ b :=
  Int.le_of_lt_add_one ((zpow_lt_zpow_iff_right₀ (by norm_num)).1 (ha.trans_lt hb))

namespace Significant

variable {p : ℕ}

/-- The rational that the digits denote. -/
def value (s : Significant p) : ℚ := s.coefficient * 10 ^ (s.magnitude - p + 1)

/-- No decimal of `p` digits is nearer. Of two that are equally near it is the one with the even
    coefficient; with one digit, `9` and the next power of ten both have an odd one, and it is
    the power of ten. -/
structure IsNearest (s : Significant p) (v : ℚ) : Prop where
  le : ∀ t : Significant p, |s.value - v| ≤ |t.value - v|
  tie : ∀ t : Significant p, |t.value - v| = |s.value - v| →
    t = s ∨ s.coefficient % 2 = 0 ∨ s.coefficient = 1 ∧ t.magnitude < s.magnitude

variable (s t : Significant p)

include s in
/-- There is at least one digit. -/
theorem one_le : 1 ≤ p := by
  have hlow := s.low
  have hhigh := s.high
  by_contra hp
  obtain rfl : p = 0 := by omega
  rw [Nat.pow_zero] at hlow hhigh
  omega

theorem pow_le_value : (10 : ℚ) ^ s.magnitude ≤ s.value := by
  have hp := s.one_le
  have hlow : ((10 ^ (p - 1) : ℕ) : ℚ) ≤ s.coefficient := Nat.cast_le.2 s.low
  calc (10 : ℚ) ^ s.magnitude
      = ((10 ^ (p - 1) : ℕ) : ℚ) * 10 ^ (s.magnitude - p + 1) := (pow_mul_zpow (by omega)).symm
    _ ≤ s.value := mul_le_mul_of_nonneg_right hlow (by positivity)

theorem value_lt_pow : s.value < 10 ^ (s.magnitude + 1) := by
  have hhigh : (s.coefficient : ℚ) < (10 ^ p : ℕ) := Nat.cast_lt.2 s.high
  calc s.value
      < ((10 ^ p : ℕ) : ℚ) * 10 ^ (s.magnitude - p + 1) :=
        mul_lt_mul_of_pos_right hhigh (by positivity)
    _ = 10 ^ (s.magnitude + 1) := pow_mul_zpow (by omega)

variable {s t}

/-- A value has one first digit. -/
theorem magnitude_eq {m : ℤ} {v : ℚ} (h : s.value = v) (hlow : (10 : ℚ) ^ m ≤ v)
    (hhigh : v < 10 ^ (m + 1)) : s.magnitude = m :=
  le_antisymm (magnitude_le (h ▸ s.pow_le_value) hhigh)
    (magnitude_le hlow (h ▸ s.value_lt_pow))

/-- A value has one decimal of `p` digits. -/
theorem eq_of_value_eq (h : s.value = t.value) : s = t := by
  have hmagnitude := magnitude_eq h t.pow_le_value t.value_lt_pow
  have hcoefficient : s.coefficient = t.coefficient := by
    rw [value, value, hmagnitude, mul_left_inj' (by positivity)] at h
    exact Nat.cast_injective h
  cases s
  cases t
  cases hmagnitude
  cases hcoefficient
  rfl

/-- With the power of ten `m` or above, a decimal of `p` digits is a multiple of the step for
    `m`. -/
theorem exists_multiple {m : ℤ} (h : m ≤ t.magnitude) :
    ∃ i : ℕ, t.value = i * (10 : ℚ) ^ (m - p + 1) := by
  obtain ⟨k, hk⟩ := Int.eq_ofNat_of_zero_le (Int.sub_nonneg_of_le h)
  refine ⟨t.coefficient * 10 ^ k, ?_⟩
  rw [value, Nat.cast_mul, mul_assoc, pow_mul_zpow (b := t.magnitude - p + 1) (by omega)]

/-- Of two nearest decimals none is below the other. They would be next to each other, with the
    value halfway between them, and so the lower one even and the upper one odd. -/
theorem IsNearest.value_le {v : ℚ} (hs : s.IsNearest v) (ht : t.IsNearest v) :
    t.value ≤ s.value := by
  by_contra hle
  have hlt := not_le.1 hle
  have hsame : |t.value - v| = |s.value - v| := le_antisymm (ht.le s) (hs.le t)
  have hhalf : s.value + t.value = 2 * v := by
    rcases abs_eq_abs.1 hsame with h | h <;> linarith
  have hmagnitude : s.magnitude ≤ t.magnitude :=
    magnitude_le s.pow_le_value (hlt.trans t.value_lt_pow)
  have hne : t ≠ s := fun h => hlt.ne' (h ▸ rfl)
  have heven : s.coefficient % 2 = 0 :=
    ((hs.tie t hsame).resolve_left hne).resolve_right fun h => Int.not_lt.2 hmagnitude h.2
  -- The next decimal has the same power of ten, since no even coefficient is the last one.
  have hhigh : s.coefficient + 1 < 10 ^ p := by
    obtain ⟨q, rfl⟩ := Nat.exists_eq_add_of_le' s.one_le
    have hlast := s.high
    rw [Nat.pow_succ] at hlast ⊢
    omega
  let u : Significant p := ⟨s.coefficient + 1, s.magnitude, Nat.le_succ_of_le s.low, hhigh⟩
  have hstep : (0 : ℚ) < 10 ^ (s.magnitude - p + 1) := by positivity
  have hsu : s.value < u.value :=
    mul_lt_mul_of_pos_right (Nat.cast_lt.2 (Nat.lt_succ_self s.coefficient)) hstep
  have hut : u.value ≤ t.value := by
    obtain ⟨i, hi⟩ := exists_multiple hmagnitude
    rw [hi, value, mul_lt_mul_iff_left₀ hstep, Nat.cast_lt] at hlt
    rw [hi]
    exact mul_le_mul_of_nonneg_right (Nat.cast_le.2 hlt) hstep.le
  rcases lt_or_eq_of_le hut with hlt | heq
  · have hnear := hs.le u
    have habs : |s.value - v| = v - s.value := by
      rw [abs_sub_comm, abs_of_nonneg (by linarith)]
    rw [habs] at hnear
    rcases le_abs.1 hnear with h | h <;> linarith
  · obtain rfl := eq_of_value_eq heq
    rcases (ht.tie s hsame.symm).resolve_left hne.symm with h | h
    · exact absurd h (show ¬(s.coefficient + 1) % 2 = 0 by omega)
    · exact lt_irrefl s.magnitude h.2

/-- Only one decimal of `p` digits is nearest. -/
theorem IsNearest.eq {v : ℚ} (hs : s.IsNearest v) (ht : t.IsNearest v) : s = t :=
  eq_of_value_eq (le_antisymm (ht.value_le hs) (hs.value_le ht))

/-- From below a power of ten, nothing that is not lower than it is as near. -/
theorem eq_or_magnitude_lt {v : ℚ} (hs : s.value = 10 ^ s.magnitude) (hv : v ≤ s.value)
    (htie : |t.value - v| = |s.value - v|) : t = s ∨ t.magnitude < s.magnitude := by
  rcases Int.lt_or_le t.magnitude s.magnitude with hm | hm
  · exact .inr hm
  · have hge : s.value ≤ t.value := by
      rw [hs]
      exact (zpow_le_zpow_right₀ (by norm_num) hm).trans t.pow_le_value
    rw [abs_of_nonneg (sub_nonneg.2 (hv.trans hge)), abs_of_nonneg (sub_nonneg.2 hv),
      sub_left_inj] at htie
    exact .inl (eq_of_value_eq htie)

section

variable {m : ℤ} {v : ℚ} {r : ℕ} (hlow : (10 : ℚ) ^ m ≤ v)
  (h : RoundsTo (fun j : ℕ => (j : ℚ) * 10 ^ (m - p + 1)) v r)
include hlow h

/-- What is rounded to a multiple of the step is rounded to the nearest decimal of `p` digits,
    whatever its power of ten. -/
theorem le_of_roundsTo (hp : 1 ≤ p) (t : Significant p) :
    |(r : ℚ) * 10 ^ (m - p + 1) - v| ≤ |t.value - v| ∧
      (|t.value - v| = |(r : ℚ) * 10 ^ (m - p + 1) - v| →
        t.value = r * (10 : ℚ) ^ (m - p + 1) ∨ r % 2 = 0) := by
  have hstep : (0 : ℚ) < 10 ^ (m - p + 1) := by positivity
  have hnearest := h.nearest (Nat.strictMono_cast.mul_const hstep)
  rcases le_or_gt m t.magnitude with hm | hm
  · obtain ⟨i, hi⟩ := exists_multiple hm
    rw [hi]
    exact ⟨(hnearest i).1, fun htie => ((hnearest i).2 htie).imp_left fun hir => by rw [hir]⟩
  · -- Below the power of ten, the power of ten itself is nearer.
    have hpow : ((10 ^ (p - 1) : ℕ) : ℚ) * 10 ^ (m - p + 1) = 10 ^ m :=
      pow_mul_zpow (by omega)
    have hbelow : t.value < 10 ^ m :=
      t.value_lt_pow.trans_le (zpow_le_zpow_right₀ (by norm_num) hm)
    have hlt : |(10 : ℚ) ^ m - v| < |t.value - v| := by
      rw [abs_sub_comm, abs_of_nonneg (sub_nonneg.2 hlow), abs_sub_comm t.value,
        abs_of_pos (sub_pos.2 (hbelow.trans_le hlow))]
      exact sub_lt_sub_left hbelow v
    have hle := (hnearest (10 ^ (p - 1))).1
    rw [hpow] at hle
    have hfar := hle.trans_lt hlt
    exact ⟨hfar.le, fun htie => absurd htie hfar.ne'⟩

/-- What is rounded to a multiple of the step has a nearest decimal of `p` digits, and it is this
    multiple. -/
theorem exists_isNearest (hp : 1 ≤ p) (hhigh : v < 10 ^ (m + 1)) :
    ∃ s : Significant p, s.IsNearest v ∧ s.value = r * (10 : ℚ) ^ (m - p + 1) := by
  have hstep : (0 : ℚ) < 10 ^ (m - p + 1) := by positivity
  have hmono : StrictMono fun j : ℕ => (j : ℚ) * 10 ^ (m - p + 1) :=
    Nat.strictMono_cast.mul_const hstep
  have hfirst : ((10 ^ (p - 1) : ℕ) : ℚ) * 10 ^ (m - p + 1) = 10 ^ m := pow_mul_zpow (by omega)
  have hnext : ((10 ^ p : ℕ) : ℚ) * 10 ^ (m - p + 1) = 10 ^ (m + 1) := pow_mul_zpow (by omega)
  have hrlow : 10 ^ (p - 1) ≤ r := (RoundsTo.self hmono _).mono h (hfirst.le.trans hlow)
  have hrhigh : r ≤ 10 ^ p := h.mono (RoundsTo.self hmono _) (hhigh.le.trans hnext.ge)
  have hnear := le_of_roundsTo hlow h hp
  rcases Nat.lt_or_eq_of_le hrhigh with hlt | rfl
  · have hvalue : value ⟨r, m, hrlow, hlt⟩ = r * (10 : ℚ) ^ (m - p + 1) := rfl
    refine ⟨⟨r, m, hrlow, hlt⟩, ⟨fun t => ?_, fun t htie => ?_⟩, hvalue⟩
    · rw [hvalue]
      exact (hnear t).1
    · rw [hvalue] at htie
      exact ((hnear t).2 htie).imp (fun ht => eq_of_value_eq ht) .inl
  · -- Rounding has carried into a new digit.
    let s : Significant p :=
      ⟨10 ^ (p - 1), m + 1, le_rfl, Nat.pow_lt_pow_right (by decide) (by omega)⟩
    have hvalue : s.value = ((10 ^ p : ℕ) : ℚ) * 10 ^ (m - p + 1) := by
      rw [hnext]
      exact pow_mul_zpow (a := m + 1 - p + 1) (by omega)
    refine ⟨s, ⟨fun t => ?_, fun t htie => ?_⟩, hvalue⟩
    · rw [hvalue]
      exact (hnear t).1
    · rcases Nat.lt_or_ge 1 p with hmany | hone
      · obtain ⟨q, rfl⟩ := Nat.exists_eq_add_of_lt hmany
        refine .inr (.inl ?_)
        show 10 ^ (1 + q + 1 - 1) % 2 = 0
        rw [Nat.add_sub_cancel, Nat.add_comm, Nat.pow_succ]
        omega
      · have hcoefficient : 10 ^ (p - 1) = 1 := by rw [Nat.sub_eq_zero_of_le hone, Nat.pow_zero]
        exact (eq_or_magnitude_lt (hvalue.trans hnext) (hvalue ▸ hnext ▸ hhigh.le) htie).imp_right
          fun hm => .inr ⟨hcoefficient, hm⟩

end

end Significant

/-! ## Rounding decimals -/

namespace Decimal

variable {d : Decimal}

theorem lt_pow_digitCount (n : ℕ) : n < 10 ^ digitCount n :=
  (Nat.length_toDigits_le_iff (by decide) Nat.length_toDigits_pos).1 le_rfl

theorem coefficient_eq_zero_iff : d.coefficient = 0 ↔ d.value = 0 := by
  rw [value_eq, mul_eq_zero, or_iff_left (zpow_ne_zero _ (by norm_num)), Nat.cast_eq_zero]

/-- A decimal counted in steps of the last place that is left. -/
theorem value_eq_div_mul (d : Decimal) (k : ℕ) :
    d.value = (d.coefficient : ℚ) / (10 ^ k : ℕ) * 10 ^ (d.exponent + k) := by
  rw [value_eq, Nat.cast_pow, Nat.cast_ofNat, add_comm d.exponent, zpow_add₀ (by norm_num),
    zpow_natCast, ← mul_assoc, div_mul_cancel₀ _ (pow_ne_zero _ (by norm_num))]

/-- The nearest decimal without the last places is found by rounding to a step. -/
theorem roundsTo_nearestAt (d : Decimal) (k : ℕ) :
    RoundsTo (fun j : ℕ => (j : ℚ) * 10 ^ (d.exponent + k)) d.value
      (roundDiv d.coefficient (10 ^ k)) := by
  rw [value_eq_div_mul d k]
  exact (roundsTo_roundDiv d.coefficient (Nat.pow_pos (by decide))).mul (by positivity)

section

variable (h : d.coefficient ≠ 0)
include h

/-- The first digit of a decimal is at its magnitude. -/
theorem magnitude_bounds : (10 : ℚ) ^ d.magnitude ≤ d.value ∧ d.value < 10 ^ (d.magnitude + 1) := by
  have hcount : 1 ≤ digitCount d.coefficient := Nat.length_toDigits_pos
  have hstep : (0 : ℚ) < 10 ^ d.exponent := by positivity
  have hlow := pow_le_of_lt_digitCount h (Nat.sub_lt hcount Nat.one_pos)
  have hhigh := lt_pow_digitCount d.coefficient
  rw [← Nat.cast_le (α := ℚ), ← mul_le_mul_iff_left₀ hstep, ← value_eq] at hlow
  rw [← Nat.cast_lt (α := ℚ), ← mul_lt_mul_iff_left₀ hstep, ← value_eq] at hhigh
  rw [pow_mul_zpow (b := d.magnitude) (by rw [magnitude, if_neg h]; omega)] at hlow
  rw [pow_mul_zpow (b := d.magnitude + 1) (by rw [magnitude, if_neg h]; omega)] at hhigh
  exact ⟨hlow, hhigh⟩

/-- Without all but `p` digits, the last place that is left is that of `p` digits. -/
theorem exponent_add_eq {p : ℕ} (hcount : p ≤ digitCount d.coefficient) :
    d.exponent + (digitCount d.coefficient - p : ℕ) = d.magnitude - p + 1 := by
  rw [magnitude, if_neg h]
  omega

/-- Rounding to `p` digits is rounding to a multiple of the step of the last of them. -/
theorem exists_roundsTo_roundTo (p : ℕ) :
    ∃ r : ℕ, RoundsTo (fun j : ℕ => (j : ℚ) * 10 ^ (d.magnitude - p + 1)) d.value r ∧
      (d.roundTo p).value = r * (10 : ℚ) ^ (d.magnitude - p + 1) := by
  rcases Nat.le_total (digitCount d.coefficient) p with hle | hle
  · -- There are no digits to drop.
    have hstep : (0 : ℚ) < 10 ^ (d.magnitude - p + 1) := by positivity
    have hmagnitude : d.magnitude = d.exponent + digitCount d.coefficient - 1 := if_neg h
    have hvalue : d.value = ((d.coefficient * 10 ^ (p - digitCount d.coefficient) : ℕ) : ℚ) *
        10 ^ (d.magnitude - p + 1) := by
      rw [value_eq, Nat.cast_mul, mul_assoc, pow_mul_zpow (b := d.exponent) (by omega)]
    have hsame : d.roundTo p = d := by
      have hexact := roundDiv_mul d.coefficient Nat.one_pos
      rw [Nat.mul_one] at hexact
      rw [roundTo, nearestAt, Nat.sub_eq_zero_of_le hle, Nat.pow_zero, hexact, Nat.cast_zero,
        Int.add_zero]
    rw [hsame, hvalue]
    exact ⟨_, RoundsTo.self (Nat.strictMono_cast.mul_const hstep) _, rfl⟩
  · have hround := roundsTo_nearestAt d (digitCount d.coefficient - p)
    rw [exponent_add_eq h hle] at hround
    refine ⟨_, hround, ?_⟩
    rw [value_eq, roundTo, nearestAt, exponent_add_eq h hle]

/-- Rounding to `p` digits ends on the nearest decimal of `p` digits. -/
theorem exists_isNearest {p : ℕ} (hp : 1 ≤ p) :
    ∃ s : Significant p, s.IsNearest d.value ∧ (d.roundTo p).value = s.value := by
  obtain ⟨hlow, hhigh⟩ := magnitude_bounds h
  obtain ⟨r, hround, hvalue⟩ := exists_roundsTo_roundTo h p
  obtain ⟨s, hnearest, hs⟩ := Significant.exists_isNearest hlow hround hp hhigh
  exact ⟨s, hnearest, hvalue.trans hs.symm⟩

end

end Decimal

/-! ## Printed results -/

namespace Layout

theorem isFixed_iff (l : Layout) (m : ℤ) : l.isFixed m = true ↔ -4 ≤ m ∧ m < l.fixedBelow := by
  rw [isFixed, Bool.and_eq_true, decide_eq_true_eq, decide_eq_true_eq]
  rfl

theorem isFixed_rounded_iff {n : ℕ} {m : ℤ} :
    (rounded n).isFixed m = true ↔ -4 ≤ m ∧ m < n := isFixed_iff _ m

variable {n : ℕ} (hn : 1 ≤ n) (negative : Bool) {d : Decimal}
include hn

/-- A zero is written as one digit. -/
theorem write_rounded_of_zero (h : d.coefficient = 0) :
    (rounded n).write negative (d.roundTo n) = if negative then "-0" else "0" := by
  have hcoefficient := Decimal.coefficient_roundTo h n
  have hfixed : (rounded n).isFixed 0 = true :=
    isFixed_rounded_iff.2 ⟨by decide, Int.natCast_pos.2 hn⟩
  have hchars : (rounded n).chars (d.roundTo n) = ['0'] := by
    rw [chars, Decimal.magnitude, if_pos hcoefficient, if_pos hfixed, Decimal.figures,
      if_pos hcoefficient]
    rfl
  rw [write, hchars]
  cases negative <;> rfl

/-- Any other decimal is written as the nearest one of `n` digits. -/
theorem exists_written_rounded (h : d.coefficient ≠ 0) :
    ∃ (s : Significant n) (w : WrittenNumber),
      s.IsNearest d.value ∧ (rounded n).write negative (d.roundTo n) = String.ofList w.chars ∧
        w.WellFormed ∧ w.negative = negative ∧
        w.value = (if negative then -1 else 1) * s.value ∧
        w.fraction.getLast? ≠ some '0' ∧
        if -4 ≤ s.magnitude ∧ s.magnitude < n then w.power? = none
        else w.power?.isSome = true ∧ w.exponent = s.magnitude := by
  obtain ⟨s, hnearest, hs⟩ := Decimal.exists_isNearest h hn
  generalize d.roundTo n = r at hs ⊢
  have hr : r.coefficient ≠ 0 := by
    have hpos : (0 : ℚ) < s.value := lt_of_lt_of_le (by positivity) s.pow_le_value
    rw [Ne, Decimal.coefficient_eq_zero_iff, hs]
    exact hpos.ne'
  have hmagnitude : s.magnitude = r.magnitude :=
    have hbounds := Decimal.magnitude_bounds hr
    Significant.magnitude_eq hs.symm hbounds.1 hbounds.2
  obtain ⟨w, rfl, hwrite, hshows⟩ := exists_shows (rounded n) negative r
  refine ⟨s, w, hnearest, hwrite, hshows.wellFormed, rfl, hs ▸ hshows.value_eq, ?_, ?_⟩
  · intro hlast
    have hfigures := Decimal.getLast?_figures hr
    rcases hshows.last with hnil | hsame
    · rw [hnil] at hlast
      exact absurd hlast nofun
    · exact hfigures (hsame ▸ hlast)
  · have hform := hshows.form
    simp only [isFixed_rounded_iff, ← hmagnitude] at hform
    exact hform

end Layout

namespace Binary64

/-- The magnitude of a number is its exact decimal. -/
theorem abs_value_eq (s : Bool) (k : Rank) : |(finite s k).value| = (Decimal.exact k).value := by
  rw [abs_value_finite, ← Decimal.value_exact, mul_div_cancel_right₀ _ cast_unitsPerOne_pos.ne']

/-- A number that is not zero is negative if it has a minus. -/
theorem value_neg_iff {s : Bool} {k : Rank} (h : (finite s k).value ≠ 0) :
    (finite s k).value < 0 ↔ s = true := by
  have hk : k.val ≠ 0 := mt value_eq_zero_iff.2 h
  rw [← isNegative_iff rfl, isNegative, Bool.and_eq_true, bne_iff_ne, and_iff_left hk]

/-- A finite number is printed with a precision of one or more: a zero as `0`, with its sign, and
    any other number as the one nearest decimal with so many significant digits. The form is the
    fixed one if the first digit, after rounding, is at `10 ^ (-4)` or above and all digits before
    the point are significant; in the scientific one the power of ten is that of the first digit.
    After the point, no zero is last. -/
theorem format_rounded (x : Binary64) (hx : x.isFinite = true) (precision : ℤ)
    (hlow : 1 ≤ precision) (hhigh : precision < 2 ^ (31 : ℕ)) :
    if x.value = 0 then x.format precision = .ok (if x.isSigned then "-0" else "0")
    else ∃ (s : Significant precision.toNat) (w : WrittenNumber),
      s.IsNearest |x.value| ∧ (∀ t : Significant precision.toNat, t.IsNearest |x.value| → t = s) ∧
        x.format precision = .ok (String.ofList w.chars) ∧ w.WellFormed ∧
        (w.negative = true ↔ x.value < 0) ∧
        w.value = (if x.value < 0 then -1 else 1) * s.value ∧
        w.fraction.getLast? ≠ some '0' ∧
        if -4 ≤ s.magnitude ∧ s.magnitude < precision then w.power? = none
        else w.power?.isSome = true ∧ w.exponent = s.magnitude := by
  obtain ⟨negative, k, rfl⟩ := exists_eq_finite hx
  have hformat : (finite negative k).format precision =
      .ok ((Layout.rounded precision.toNat).write negative
        ((Decimal.exact k).roundTo precision.toNat)) := by
    rw [format, significantDigits_of_pos hlow hhigh]
    rfl
  have hone : 1 ≤ precision.toNat := by omega
  have hcast : (precision.toNat : ℤ) = precision := Int.toNat_of_nonneg (by omega)
  have hexact := abs_value_eq negative k
  rw [hformat]
  split
  · rename_i hzero
    rw [hzero, abs_zero] at hexact
    rw [Layout.write_rounded_of_zero hone negative
      (Decimal.coefficient_eq_zero_iff.2 hexact.symm)]
    rfl
  · rename_i hnonzero
    have hcoefficient : (Decimal.exact k).coefficient ≠ 0 := by
      rwa [Ne, Decimal.coefficient_eq_zero_iff, ← hexact, abs_eq_zero]
    have hsign := value_neg_iff hnonzero
    obtain ⟨s, w, hnearest, hwrite, hformed, rfl, hvalue, hlast, hform⟩ :=
      Layout.exists_written_rounded hone negative hcoefficient
    rw [hcast] at hform
    rw [← hexact] at hnearest
    simp only [← hsign] at hvalue
    exact ⟨s, w, hnearest, fun t ht => ht.eq hnearest, by rw [hwrite], hformed, hsign.symm, hvalue,
      hlast, hform⟩

/-- To five digits, `99999.5` is as near to `99999` as to `100000`. It is rounded up, so that its
    first digit moves, and the form with it. -/
theorem format_rounded_carry :
    let x : Binary64 := .finite false ⟨4681608326524436480, by decide⟩
    x.isFinite = true ∧ x.value ≠ 0 ∧ x.format 5 = .ok "1e+05" ∧
      ∃ (s : Significant 5) (w : WrittenNumber), s.IsNearest |x.value| ∧
        String.ofList w.chars = "1e+05" ∧ w.WellFormed ∧ w.value = s.value := by
  intro x
  have hformat : x.format 5 = .ok "1e+05" := by decide +kernel
  have hnonzero : x.value ≠ 0 := mt value_eq_zero_iff.1 (by decide)
  have hrounded := format_rounded x rfl 5 (by decide) (by decide)
  rw [if_neg hnonzero, hformat] at hrounded
  obtain ⟨s, w, hnearest, -, hchars, hformed, -, hvalue, -⟩ := hrounded
  rw [if_neg (mt (value_neg_iff hnonzero).1 Bool.false_ne_true), one_mul] at hvalue
  exact ⟨rfl, hnonzero, hformat, s, w, hnearest, (Except.ok.inj hchars).symm, hformed, hvalue⟩

end Binary64

end Calculator
