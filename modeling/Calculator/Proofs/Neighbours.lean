import Calculator.Decimal.Shortest
import Calculator.Proofs.NearestNumber
import Calculator.Proofs.SignificantDigits

/-!
# Neighbours of a number

Among the decimals of `p` digits, the next one at or below the exact value of a number and the
next one above it are its neighbours. Any other is farther from it, on its side
(`Decimal.value_le_floorAt`, `Decimal.aboveAt_le_value`), and decimals that are read as a number
have no others between them. So if a decimal of `p` digits is read as the number, then a neighbour
is, too, and is as near (`exists_neighbour`).

The search for the shortest decimal looks at neighbours only. What it finds for `p` digits is as
near as any decimal of `p` digits that is read as the number, and where it finds nothing there is
none (`abs_sub_le_of_readNeighbour?`, `readsAs_eq_false_of_readNeighbour?`). It ends with the
fewest digits for which there is one (`exists_readNeighbour?_shortest`).
-/

namespace Calculator

attribute [local instance (2000)] instPowNat

namespace Decimal

variable {d t : Decimal} {p : ℕ}

/-! ## Decimals without their last places -/

/-- So many steps are at or below the decimal. -/
theorem mul_le_value_iff (d : Decimal) (k i : ℕ) :
    (i : ℚ) * 10 ^ (d.exponent + k) ≤ d.value ↔ i ≤ d.coefficient / 10 ^ k := by
  have hpow : 0 < 10 ^ k := Nat.pow_pos (by decide)
  rw [value_eq_div_mul d k, mul_le_mul_iff_left₀ (by positivity),
    le_div_iff₀ (Nat.cast_pos.2 hpow), ← Nat.cast_mul, Nat.cast_le,
    Nat.le_div_iff_mul_le hpow]

theorem value_floorAt_le (d : Decimal) (k : ℕ) : (d.floorAt k).value ≤ d.value := by
  rw [value_eq (d.floorAt k)]
  exact (mul_le_value_iff d k _).2 le_rfl

theorem value_lt_aboveAt (d : Decimal) (k : ℕ) : d.value < (d.aboveAt k).value := by
  rw [value_eq (d.aboveAt k)]
  exact not_le.1 fun hle => Nat.not_succ_le_self _ ((mul_le_value_iff d k _).1 hle)

/-- No place is left out. -/
theorem floorAt_zero (d : Decimal) : d.floorAt 0 = d := by
  rw [floorAt, Nat.pow_zero, Nat.div_one, Nat.cast_zero, Int.add_zero]

/-- The nearest decimal is as near as both of the neighbours. -/
theorem abs_nearestAt_sub_le {n : Decimal} {k : ℕ} (hn : n = d.floorAt k ∨ n = d.aboveAt k) :
    |(d.nearestAt k).value - d.value| ≤ |n.value - d.value| := by
  have hstep : (0 : ℚ) < 10 ^ (d.exponent + k) := by positivity
  have hnearest := (roundsTo_nearestAt d k).nearest (Nat.strictMono_cast.mul_const hstep)
  rw [value_eq (d.nearestAt k)]
  rcases hn with rfl | rfl
  · rw [value_eq (d.floorAt k)]
    exact (hnearest _).1
  · rw [value_eq (d.aboveAt k)]
    exact (hnearest _).1

/-! ## Decimals of a number of digits -/

/-- With at most `p` digits, a decimal is a multiple of the step that these have from `10 ^ m` on,
    or it is below `10 ^ m`. -/
theorem exists_multiple_or_lt (ht : t.coefficient < 10 ^ p) (m : ℤ) :
    (∃ i : ℕ, t.value = i * (10 : ℚ) ^ (m - p + 1)) ∨ t.value < 10 ^ m := by
  rcases le_or_gt (m - p + 1) t.exponent with hle | hlt
  · obtain ⟨k, hk⟩ := Int.eq_ofNat_of_zero_le (Int.sub_nonneg_of_le hle)
    refine .inl ⟨t.coefficient * 10 ^ k, ?_⟩
    rw [value_eq, Nat.cast_mul, mul_assoc, pow_mul_zpow (b := t.exponent) (by omega)]
  · have hcast : (t.coefficient : ℚ) < (10 ^ p : ℕ) := Nat.cast_lt.2 ht
    refine .inr ?_
    calc t.value
        = t.coefficient * 10 ^ t.exponent := value_eq t
      _ < ((10 ^ p : ℕ) : ℚ) * 10 ^ t.exponent := mul_lt_mul_of_pos_right hcast (by positivity)
      _ = 10 ^ (p + t.exponent) := pow_mul_zpow rfl
      _ ≤ 10 ^ m := zpow_le_zpow_right₀ (by norm_num) (by omega)

section

variable (h : d.coefficient ≠ 0) (hp : 1 ≤ p) (hcount : p ≤ digitCount d.coefficient)
  (ht : t.coefficient < 10 ^ p)

include h hp ht in
/-- What is below has the lower neighbour for its next. -/
theorem value_le_floorAt (hle : t.value ≤ d.value) :
    t.value ≤ (d.floorAt (digitCount d.coefficient - p)).value := by
  rcases Nat.lt_or_ge (digitCount d.coefficient) p with hfew | hcount
  · rwa [Nat.sub_eq_zero_of_le hfew.le, floorAt_zero]
  · have hexponent := exponent_add_eq h hcount
    have hfloor (i : ℕ) (hi : (i : ℚ) * 10 ^ (d.magnitude - p + 1) ≤ d.value) :
        (i : ℚ) * 10 ^ (d.magnitude - p + 1) ≤
          (d.floorAt (digitCount d.coefficient - p)).value := by
      rw [← hexponent, mul_le_value_iff] at hi
      rw [value_eq, floorAt, hexponent]
      exact mul_le_mul_of_nonneg_right (Nat.cast_le.2 hi) (by positivity)
    rcases exists_multiple_or_lt ht d.magnitude with ⟨i, hi⟩ | hlt
    · rw [hi] at hle ⊢
      exact hfloor i hle
    · -- The power of ten that the first digit counts is a multiple of the step.
      have hfirst : ((10 ^ (p - 1) : ℕ) : ℚ) * 10 ^ (d.magnitude - p + 1) = 10 ^ d.magnitude :=
        pow_mul_zpow (by omega)
      have hpow := hfloor (10 ^ (p - 1)) (hfirst ▸ (magnitude_bounds h).1)
      rw [hfirst] at hpow
      exact hlt.le.trans hpow

include h hcount ht in
/-- What is above has the upper neighbour for its next. -/
theorem aboveAt_le_value (hlt : d.value < t.value) :
    (d.aboveAt (digitCount d.coefficient - p)).value ≤ t.value := by
  have hexponent := exponent_add_eq h hcount
  rcases exists_multiple_or_lt ht d.magnitude with ⟨i, hi⟩ | hbelow
  · rw [hi, ← hexponent] at hlt ⊢
    have hnext : d.coefficient / 10 ^ (digitCount d.coefficient - p) < i :=
      Nat.lt_of_not_le fun hle => hlt.not_ge ((mul_le_value_iff d _ i).2 hle)
    rw [value_eq, aboveAt]
    exact mul_le_mul_of_nonneg_right (Nat.cast_le.2 hnext) (by positivity)
  · exact absurd (hlt.trans hbelow) (magnitude_bounds h).1.not_gt

end

/-! ## Decimals that are read as a number -/

variable {rank : Rank}

/-- A decimal is read as a number if its value is rounded to the rank. -/
theorem readsAs_iff :
    d.readsAs rank = true ↔ RoundsTo (fun k => (units k : ℚ)) (d.value * unitsPerOne) rank := by
  obtain ⟨k, hk, hread⟩ := d.exists_roundsTo false
  rw [readsAs, beq_iff_eq, hread]
  constructor
  · intro h
    split at h
    · obtain rfl := (Binary64.finite.inj h).2
      exact hk
    · exact absurd h nofun
  · intro h
    obtain rfl := hk.eq h
    exact dif_pos rank.isLt

/-- With either sign, such a decimal is read as the number of that sign. -/
theorem toBinary64_of_readsAs (h : d.readsAs rank = true) (negative : Bool) :
    d.toBinary64 negative = .finite negative rank := by
  obtain ⟨k, hk, hread⟩ := d.exists_roundsTo negative
  obtain rfl := hk.eq (readsAs_iff.1 h)
  rw [hread, dif_pos rank.isLt]

/-- What is between decimals that are read as a number is read as it. -/
theorem readsAs_of_le_of_le {a b : Decimal} (ha : a.readsAs rank = true)
    (hb : b.readsAs rank = true) (had : a.value ≤ d.value) (hdb : d.value ≤ b.value) :
    d.readsAs rank = true := by
  have hunits := Binary64.cast_unitsPerOne_pos.le
  obtain ⟨k, hk, _⟩ := d.exists_roundsTo false
  rw [readsAs_iff] at ha hb ⊢
  have hlow : rank.val ≤ k := ha.mono hk (mul_le_mul_of_nonneg_right had hunits)
  have hhigh : k ≤ rank.val := hk.mono hb (mul_le_mul_of_nonneg_right hdb hunits)
  rwa [← Nat.le_antisymm hlow hhigh] at hk

theorem readsAs_exact (rank : Rank) : (exact rank).readsAs rank = true := by
  rw [readsAs_iff, value_exact]
  exact .self cast_units_strictMono rank

theorem coefficient_exact_ne_zero (h : rank.val ≠ 0) : (exact rank).coefficient ≠ 0 := by
  rw [Ne, coefficient_eq_zero_iff, ← Binary64.abs_value_eq false, abs_eq_zero,
    Binary64.value_eq_zero_iff]
  exact h

end Decimal

open Decimal

variable {rank : Rank} {p k : ℕ} {d n t : Decimal}

/-- If a decimal of `p` digits is read as a number, one of the two neighbours is, and is as near
    to it. -/
theorem exists_neighbour (h : rank.val ≠ 0) (hp : 1 ≤ p) (ht : t.coefficient < 10 ^ p)
    (hread : t.readsAs rank = true) :
    let x := exact rank
    let k := digitCount x.coefficient - p
    ∃ n, (n = x.floorAt k ∨ n = x.aboveAt k) ∧ n.readsAs rank = true ∧
      |n.value - x.value| ≤ |t.value - x.value| := by
  intro x k
  have hx : x.coefficient ≠ 0 := coefficient_exact_ne_zero h
  have hexact : x.readsAs rank = true := readsAs_exact rank
  rcases le_or_gt t.value x.value with hle | hlt
  · have hnext := value_le_floorAt hx hp ht hle
    refine ⟨_, .inl rfl, readsAs_of_le_of_le hread hexact hnext (value_floorAt_le x k), ?_⟩
    rw [abs_sub_comm, abs_of_nonneg (sub_nonneg.2 (value_floorAt_le x k)), abs_sub_comm,
      abs_of_nonneg (sub_nonneg.2 hle)]
    exact sub_le_sub_left hnext _
  · rcases Nat.lt_or_ge (digitCount x.coefficient) p with hfew | hcount
    · -- The exact decimal has no more digits itself.
      have hfloor : x.floorAt k = x := by
        rw [show k = 0 from Nat.sub_eq_zero_of_le hfew.le, floorAt_zero]
      refine ⟨_, .inl rfl, by rwa [hfloor], ?_⟩
      rw [hfloor, sub_self, abs_zero]
      exact abs_nonneg _
    · have hnext := aboveAt_le_value hx hcount ht hlt
      refine ⟨_, .inr rfl, readsAs_of_le_of_le hexact hread (value_lt_aboveAt x k).le hnext, ?_⟩
      rw [abs_of_pos (sub_pos.2 (value_lt_aboveAt x k)), abs_of_pos (sub_pos.2 hlt)]
      exact sub_le_sub_right hnext _

/-! ## The search -/

/-- What is found is as near as the neighbours that are read as the number. -/
theorem abs_sub_le_of_neighbour (hd : readNeighbour? rank k = some d)
    (hn : n = (exact rank).floorAt k ∨ n = (exact rank).aboveAt k)
    (hread : n.readsAs rank = true) :
    |d.value - (exact rank).value| ≤ |n.value - (exact rank).value| := by
  cases hnearest : ((exact rank).nearestAt k).readsAs rank with
  | true =>
    rw [readNeighbour?,
      List.find?_cons_of_pos (p := fun x : Decimal => x.readsAs rank) hnearest] at hd
    obtain rfl := Option.some.inj hd
    exact abs_nearestAt_sub_le hn
  | false =>
    -- Only the other neighbour is left to be read.
    have hnot (a : Decimal) (ha : a.readsAs rank = true) : a ≠ (exact rank).nearestAt k := by
      rintro rfl
      exact Bool.false_ne_true (hnearest.symm.trans ha)
    have hne := hnot n hread
    have hdne := hnot d (readsAs_of_readNeighbour? hd)
    rw [readNeighbour?, List.find?_cons_of_neg (p := fun x : Decimal => x.readsAs rank)
      (Bool.eq_false_iff.1 hnearest)] at hd
    have hmem := List.mem_of_find?_eq_some hd
    simp only [List.mem_cons, List.not_mem_nil, or_false] at hmem
    have hsame : d = n := by
      rcases (exact rank).nearestAt_eq_or k with heq | heq <;> rw [heq] at hne hdne
      · exact (hmem.resolve_left hdne).trans (hn.resolve_left hne).symm
      · exact (hmem.resolve_right hdne).trans (hn.resolve_right hne).symm
    rw [hsame]

section

variable (h : rank.val ≠ 0) (hp : 1 ≤ p)
include h hp

/-- What is found for `p` digits is as near as any decimal of `p` digits that is read as the
    number. -/
theorem abs_sub_le_of_readNeighbour?
    (hd : readNeighbour? rank (digitCount (exact rank).coefficient - p) = some d)
    (ht : t.coefficient < 10 ^ p) (hread : t.readsAs rank = true) :
    |d.value - (exact rank).value| ≤ |t.value - (exact rank).value| := by
  obtain ⟨n, hn, hnread, hle⟩ := exists_neighbour h hp ht hread
  exact (abs_sub_le_of_neighbour hd hn hnread).trans hle

/-- If nothing is found for `p` digits, no decimal of `p` digits is read as the number. -/
theorem readsAs_eq_false_of_readNeighbour?
    (hnone : readNeighbour? rank (digitCount (exact rank).coefficient - p) = none)
    (ht : t.coefficient < 10 ^ p) : t.readsAs rank = false := by
  refine Bool.eq_false_iff.2 fun hread => ?_
  obtain ⟨n, hn, hnread, _⟩ := exists_neighbour h hp ht hread
  have hall := List.find?_eq_none.1 hnone
  refine hall n ?_ hnread
  rcases hn with rfl | rfl
  · exact .tail _ (.head _)
  · exact .tail _ (.tail _ (.head _))

end

/-- With seventeen digits something is found. -/
theorem readNeighbour?_ne_none (rank : Rank) :
    readNeighbour? rank (digitCount (exact rank).coefficient - sufficientDigits) ≠ none := by
  intro hnone
  have hread : ((exact rank).roundTo sufficientDigits).toBinary64 false = .finite false rank :=
    toBinary64_of_value_eq le_rfl rfl
  exact List.find?_eq_none.1 hnone _ (.head _) (beq_iff_eq.2 hread)

/-- The shortest decimal is found for the fewest digits for which there is one. -/
theorem exists_readNeighbour?_shortest (rank : Rank) :
    ∃ p, 1 ≤ p ∧
      readNeighbour? rank (digitCount (exact rank).coefficient - p) = some (shortest rank) ∧
      ∀ q, 1 ≤ q → q < p →
        readNeighbour? rank (digitCount (exact rank).coefficient - q) = none := by
  rw [shortest]
  generalize hsearch : List.findSome? _ (List.range' 1 sufficientDigits) = found
  cases found with
  | none =>
    rw [List.findSome?_eq_none_iff] at hsearch
    exact absurd (hsearch sufficientDigits (by decide)) (readNeighbour?_ne_none rank)
  | some d =>
    obtain ⟨before, p, after, hrange, hp, hbefore⟩ := List.findSome?_eq_some_iff.1 hsearch
    have hmem : p ∈ List.range' 1 sufficientDigits := by
      rw [hrange]
      exact List.mem_append_right _ (.head _)
    have hone := (List.mem_range'_1.1 hmem).1
    refine ⟨p, hone, hp, fun q hq hlt => hbefore q ?_⟩
    have hqmem : q ∈ List.range' 1 sufficientDigits :=
      List.mem_range'_1.2 ⟨hq, hlt.trans (List.mem_range'_1.1 hmem).2⟩
    rw [hrange, List.mem_append] at hqmem
    refine hqmem.resolve_right fun hafter => ?_
    -- The numbers of digits are tried in increasing order.
    have hsorted : (List.range' 1 sufficientDigits).Pairwise (· < ·) := List.pairwise_lt_range'
    rw [hrange, List.pairwise_append, List.pairwise_cons] at hsorted
    rcases List.mem_cons.1 hafter with rfl | hafter
    · exact Nat.lt_irrefl _ hlt
    · exact Nat.lt_asymm hlt (hsorted.2.1.1 q hafter)

end Calculator
