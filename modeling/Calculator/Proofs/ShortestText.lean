import Calculator.Evaluator
import Calculator.Proofs.Neighbours

/-!
# Texts that identify numbers

A report names an argument, a base or an exponent by its text, and so does a record of a value.
A text denotes a decimal (`WrittenNumber.value`), and this decimal is rounded to just the number
that is meant: the number is the nearest one to it, and the even one of two
(`Binary64.RoundedFrom`). No decimal of fewer digits is rounded to the number, and none of as many
digits is nearer to it (`Binary64.IsShortest`).

For numbers that are positive, to be rounded to a number is to be read as it
(`Decimal.readsAs_iff_roundedFrom`), so this is what the search for the shortest decimal finds.
The others have the decimals of their opposites, with a minus.
-/

namespace Calculator

attribute [local instance (2000)] instPowNat

/-- A rational is a decimal of at most `p` significant digits: a natural of so many digits, times
    a power of ten, with or without a minus. -/
def HasDigits (p : ℕ) (r : ℚ) : Prop := ∃ (c : ℕ) (e : ℤ), c < 10 ^ p ∧ |r| = c * 10 ^ e

namespace HasDigits

variable {p : ℕ} {r : ℚ}

theorem neg (h : HasDigits p r) : HasDigits p (-r) := by
  rwa [HasDigits, abs_neg]

/-- Without digits there is only zero. -/
theorem eq_zero (h : HasDigits 0 r) : r = 0 := by
  obtain ⟨c, e, hc, hr⟩ := h
  rw [Nat.lt_one_iff.1 hc, Nat.cast_zero, zero_mul] at hr
  exact abs_eq_zero.1 hr

theorem exists_decimal (h : HasDigits p r) (hr : 0 ≤ r) :
    ∃ d : Decimal, d.coefficient < 10 ^ p ∧ d.value = r := by
  obtain ⟨c, e, hc, habs⟩ := h
  exact ⟨⟨c, e⟩, hc, by rw [Decimal.value_eq, ← abs_of_nonneg hr, habs]⟩

end HasDigits

/-- A carry into a new digit leaves a power of ten, which has one digit. -/
theorem Decimal.hasDigits_of_le {d : Decimal} {p : ℕ} (hp : 1 ≤ p) (h : d.coefficient ≤ 10 ^ p) :
    HasDigits p d.value := by
  rw [HasDigits, abs_of_nonneg d.value_nonneg, value_eq]
  rcases Nat.lt_or_eq_of_le h with hlt | heq
  · exact ⟨d.coefficient, d.exponent, hlt, rfl⟩
  · refine ⟨1, p + d.exponent, Nat.one_lt_pow (Nat.ne_of_gt hp) (by decide), ?_⟩
    rw [heq, pow_mul_zpow rfl, Nat.cast_one, one_mul]

/-- The neighbours of a decimal among those of `p` digits have no more digits. -/
theorem Decimal.hasDigits_neighbour {d n : Decimal} {p : ℕ} (hp : 1 ≤ p)
    (hn : n = d.floorAt (digitCount d.coefficient - p) ∨
      n = d.aboveAt (digitCount d.coefficient - p)) : HasDigits p n.value := by
  have hlt : d.coefficient / 10 ^ (digitCount d.coefficient - p) < 10 ^ p := by
    refine Nat.div_lt_of_lt_mul ((lt_pow_digitCount d.coefficient).trans_le ?_)
    rw [← Nat.pow_add]
    exact Nat.pow_le_pow_right (by decide) (by omega)
  rcases hn with rfl | rfl
  · exact hasDigits_of_le hp hlt.le
  · exact hasDigits_of_le hp hlt

namespace Binary64

/-! ## Rounding to a number -/

/-- A rational is rounded to a finite number: this is the nearest one, and the even one of two
    that are equally near, and the rational is not so large that it is rounded to an infinity. -/
structure RoundedFrom (x : Binary64) (r : ℚ) : Prop where
  isNearest : x.IsNearest r
  lt : |r| < overflowFrom

variable {x : Binary64} {r : ℚ} {j k : Rank}

theorem value_neg (x : Binary64) : x.neg.value = -x.value := by
  cases x with
  | nan | infinite s => exact neg_zero.symm
  | finite s k =>
    have hpair : (finite true k).value = -(finite false k).value := by
      rw [value_finite_true, value_finite_false]
    cases s with
    | false => exact hpair
    | true => exact (neg_eq_iff_eq_neg.2 hpair).symm

theorem isEven_neg (x : Binary64) : x.neg.isEven = x.isEven := by
  cases x <;> rfl

theorem abs_value_neg_sub (x : Binary64) (r : ℚ) : |x.neg.value - r| = |x.value - -r| := by
  rw [value_neg, sub_neg_eq_add, ← neg_add', abs_neg]

theorem abs_value_neg_sub_neg (x : Binary64) (r : ℚ) : |x.neg.value - -r| = |x.value - r| := by
  rw [value_neg, ← neg_sub', abs_neg]

/-- Opposites are nearest to opposites. -/
theorem IsNearest.neg (h : x.IsNearest r) : x.neg.IsNearest (-r) := by
  refine ⟨by rw [isFinite_neg, h.isFinite], fun y hy => ?_, fun y hy htie => ?_⟩
  · have hle := h.le y.neg (by rw [isFinite_neg, hy])
    rwa [abs_value_neg_sub y, ← abs_value_neg_sub_neg x] at hle
  · have hsame := h.tie y.neg (by rw [isFinite_neg, hy])
    rw [abs_value_neg_sub y, ← abs_value_neg_sub_neg x] at hsame
    rw [isEven_neg, value_neg, ← neg_eq_iff_eq_neg, ← value_neg]
    exact hsame htie

theorem RoundedFrom.neg (h : x.RoundedFrom r) : x.neg.RoundedFrom (-r) :=
  ⟨h.isNearest.neg, by rw [abs_neg]; exact h.lt⟩

/-- What is rounded to a positive number is not negative, since zero would be nearer. -/
theorem IsNearest.nonneg (h : (finite false k).IsNearest r) (hk : k.val ≠ 0) : 0 ≤ r := by
  by_contra hr
  have hneg := not_le.1 hr
  have hpos : 0 < (finite false k).value := by
    rw [value_finite_false]
    exact div_pos (Nat.cast_pos.2 (units_pos hk)) cast_unitsPerOne_pos
  have hle := h.le (.zero false) rfl
  have hzero : (zero false).value = 0 := value_eq_zero_iff.2 rfl
  rw [hzero, zero_sub, abs_neg, abs_of_neg hneg, abs_of_pos (by linarith)] at hle
  linarith

/-- Only one of the numbers without a minus is nearest: two that are equally near would be
    neighbours, and not both even. -/
theorem IsNearest.rank_le (hj : (finite false j).IsNearest r) (hk : (finite false k).IsNearest r) :
    k ≤ j := by
  by_contra hle
  have hlt : j.val < k.val := not_le.1 hle
  have hvalue {a b : Rank} (h : a.val < b.val) :
      (finite false a).value < (finite false b).value := by
    rw [value_finite_false, value_finite_false, div_lt_div_iff_of_pos_right cast_unitsPerOne_pos]
    exact cast_units_strictMono h
  have hjk := hvalue hlt
  have hsame : |(finite false k).value - r| = |(finite false j).value - r| :=
    le_antisymm (hk.le _ rfl) (hj.le _ rfl)
  have hhalf : (finite false j).value + (finite false k).value = 2 * r := by
    rcases abs_eq_abs.1 hsame with h | h <;> linarith
  have hjeven : j.val % 2 = 0 := by
    rw [← beq_iff_eq, ← isEven_finite false]
    exact (hj.tie _ rfl hsame).resolve_left hjk.ne'
  have hkeven : k.val % 2 = 0 := by
    rw [← beq_iff_eq, ← isEven_finite false]
    exact (hk.tie _ rfl hsame.symm).resolve_left hjk.ne
  -- So there is a number between them, and it is nearer.
  have hnext : j.val + 1 < k.val := by omega
  have hlow := hvalue (a := j) (b := ⟨j.val + 1, hnext.trans k.isLt⟩) (Nat.lt_succ_self j.val)
  have hhigh := hvalue (a := ⟨j.val + 1, hnext.trans k.isLt⟩) (b := k) hnext
  have hnear := hj.le (.finite false ⟨j.val + 1, hnext.trans k.isLt⟩) rfl
  rw [abs_sub_comm, abs_of_nonneg (by linarith)] at hnear
  rcases le_abs.1 hnear with h | h <;> linarith

end Binary64

open Binary64

/-- To be read as a number is to be rounded to it. -/
theorem Decimal.readsAs_iff_roundedFrom {d : Decimal} {k : Rank} :
    d.readsAs k = true ↔ (finite false k).RoundedFrom d.value := by
  rw [readsAs, beq_iff_eq]
  constructor
  · intro hread
    have hlt : d.value < overflowFrom := not_le.1 fun hlarge => by
      rw [toBinary64_eq_infinite hlarge] at hread
      cases hread
    obtain ⟨j, hj, hnearest⟩ := isNearest_toBinary64 hlt
    obtain rfl := (finite.inj (hj.symm.trans hread)).2
    exact ⟨hnearest, by rwa [abs_of_nonneg d.value_nonneg]⟩
  · rintro ⟨hnearest, hlt⟩
    rw [abs_of_nonneg d.value_nonneg] at hlt
    obtain ⟨j, hj, hnearest'⟩ := isNearest_toBinary64 hlt
    rw [hj, le_antisymm (hnearest.rank_le hnearest') (hnearest'.rank_le hnearest)]

namespace Binary64

variable {x : Binary64} {p : ℕ} {r : ℚ} {k : Rank}

/-! ## The shortest decimal -/

/-- Of the decimals that are rounded to a number, this one has the fewest digits, `p` of them, and
    no other one of `p` digits is nearer to the number. -/
structure IsShortest (x : Binary64) (p : ℕ) (r : ℚ) : Prop where
  hasDigits : HasDigits p r
  rounded : x.RoundedFrom r
  least : ∀ q t, HasDigits q t → x.RoundedFrom t → p ≤ q
  closest : ∀ t, HasDigits p t → x.RoundedFrom t → |r - x.value| ≤ |t - x.value|

theorem IsShortest.neg (h : x.IsShortest p r) : x.neg.IsShortest p (-r) := by
  have hback {t : ℚ} (ht : x.neg.RoundedFrom t) : x.RoundedFrom (-t) := by
    have hneg := ht.neg
    rwa [neg_neg] at hneg
  refine ⟨h.hasDigits.neg, h.rounded.neg, fun q t hq ht => h.least q _ hq.neg (hback ht),
    fun t hp ht => ?_⟩
  have hle := h.closest _ hp.neg (hback ht)
  rw [abs_sub_comm, abs_sub_comm (-t)] at hle
  rwa [abs_sub_comm (-r), abs_value_neg_sub_neg, abs_sub_comm t, abs_value_neg_sub]

theorem overflowFrom_pos : 0 < overflowFrom := by
  have hzero : RoundsTo (fun k => (units k : ℚ)) (0 * unitsPerOne) 0 := by
    have hself := RoundsTo.self cast_units_strictMono 0
    rwa [units_eq_zero_iff.2 rfl, Nat.cast_zero, ← zero_mul (unitsPerOne : ℚ)] at hself
  exact not_le.1 (mt (rankCount_le_iff hzero).2 (by decide))

/-- Zero has no significant digits. -/
theorem isShortest_zero (h : x.value = 0) (hx : x.isFinite = true) : x.IsShortest 0 0 := by
  have habs : |x.value - 0| = 0 := by rw [h, sub_zero, abs_zero]
  refine ⟨⟨0, 0, Nat.one_pos, by simp⟩, ⟨⟨hx, fun y _ => ?_, fun y _ htie => ?_⟩, ?_⟩,
    fun _ _ _ _ => Nat.zero_le _, fun t _ _ => ?_⟩
  · rw [habs]
    exact abs_nonneg _
  · rw [habs, sub_zero, abs_eq_zero] at htie
    exact .inl (htie.trans h.symm)
  · rw [abs_zero]
    exact overflowFrom_pos
  · rw [abs_sub_comm, habs]
    exact abs_nonneg _

/-- The search finds the shortest decimal. -/
theorem exists_isShortest (hk : k.val ≠ 0) :
    ∃ p, (finite false k).IsShortest p (shortest k).value := by
  obtain ⟨p, hp, hfound, hnone⟩ := exists_readNeighbour?_shortest k
  have hvalue : (finite false k).value = (Decimal.exact k).value := by
    rw [← abs_value_eq false, abs_of_nonneg]
    rw [value_finite_false]
    exact div_nonneg (Nat.cast_nonneg _) cast_unitsPerOne_pos.le
  have hread := readsAs_of_readNeighbour? hfound
  refine ⟨p, Decimal.hasDigits_neighbour hp (eq_or_of_readNeighbour? hfound),
    Decimal.readsAs_iff_roundedFrom.1 hread, fun q t hq ht => ?_, fun t hpt ht => ?_⟩
  · obtain ⟨d, hd, rfl⟩ := hq.exists_decimal (ht.isNearest.nonneg hk)
    by_contra hle
    rcases Nat.eq_zero_or_pos q with rfl | hone
    · -- Zero is read as itself.
      rw [hq.eq_zero] at ht
      have hzero := (isShortest_zero (x := zero false) (value_eq_zero_iff.2 rfl) rfl).rounded
      exact hk (Nat.le_zero.1 (hzero.isNearest.rank_le ht.isNearest))
    · have hfalse := readsAs_eq_false_of_readNeighbour? hk hone (hnone q hone (not_le.1 hle)) hd
      exact Bool.false_ne_true (hfalse.symm.trans (Decimal.readsAs_iff_roundedFrom.2 ht))
  · obtain ⟨d, hd, rfl⟩ := hpt.exists_decimal (ht.isNearest.nonneg hk)
    rw [hvalue]
    exact abs_sub_le_of_readNeighbour? hk hp hfound hd (Decimal.readsAs_iff_roundedFrom.2 ht)

/-- Only zero has the decimal zero. -/
theorem coefficient_shortest_eq_zero_iff : (shortest k).coefficient = 0 ↔ k.val = 0 := by
  constructor
  · intro h
    obtain ⟨p, _, hfound, _⟩ := exists_readNeighbour?_shortest k
    have hread := readsAs_of_readNeighbour? hfound
    rw [Decimal.readsAs, beq_iff_eq,
      Decimal.toBinary64_of_value_eq_zero (Decimal.coefficient_eq_zero_iff.1 h)] at hread
    exact congrArg Fin.val (finite.inj hread).2.symm
  · intro h
    obtain rfl : k = ⟨0, by decide⟩ := Fin.ext h
    decide +kernel

theorem exists_isShortest_signed (s : Bool) (k : Rank) :
    ∃ p, (finite s k).IsShortest p ((if s then -1 else 1) * (shortest k).value) := by
  by_cases hk : k.val = 0
  · refine ⟨0, ?_⟩
    rw [Decimal.coefficient_eq_zero_iff.1 (coefficient_shortest_eq_zero_iff.2 hk), mul_zero]
    exact isShortest_zero (value_eq_zero_iff.2 hk) rfl
  · obtain ⟨p, hshortest⟩ := exists_isShortest hk
    refine ⟨p, ?_⟩
    cases s with
    | false =>
      rw [if_neg Bool.false_ne_true, one_mul]
      exact hshortest
    | true =>
      rw [if_pos rfl, neg_one_mul]
      exact hshortest.neg

/-! ## Texts -/

/-- A number has a name where it is talked about: in the help on a function that is not defined
    for it, in that on a power of it or with it for the exponent, and in the record of a value. -/
structure NamedBy (x : Binary64) (name : String) : Prop where
  argument : ∀ reason function, (Fault.domain reason function x).help? =
    some (function ++ "() is not defined for " ++ name ++ ".")
  base : ∀ y : Binary64, (Fault.undefinedPower x y).help? =
    some (name ++ " raised to " ++ y.text ++ " has no real value.")
  exponent : ∀ y : Binary64, (Fault.undefinedPower y x).help? =
    some (y.text ++ " raised to " ++ name ++ " has no real value.")
  recorded : ∀ text, Evaluator.records text (.ok x) =
    ["Evaluating " ++ Text.quoted text, "Evaluated " ++ Text.quoted text ++ " = " ++ name]

theorem namedBy_text (x : Binary64) : x.NamedBy x.text :=
  ⟨fun _ _ => rfl, fun _ => rfl, fun _ => rfl, fun _ => rfl⟩

/-- A finite number is named by a text that denotes the shortest decimal for it, with its sign: one
    that is rounded to the number, of the fewest digits that such a decimal can have, and of these
    one nearest to the number. If its first digit is at `10 ^ (-4)` or above and below `10 ^ 16`,
    or it is zero, the form is the fixed one, with a digit after the point. Otherwise the power of
    ten is that of the first digit. -/
theorem text_shortest (x : Binary64) (hx : x.isFinite = true) :
    ∃ (w : WrittenNumber) (p : ℕ) (e : ℤ),
      x.text = String.ofList w.chars ∧ x.NamedBy (String.ofList w.chars) ∧ w.WellFormed ∧
      w.negative = x.isSigned ∧ x.IsShortest p w.value ∧
      (if x.value = 0 then e = 0 else (10 : ℚ) ^ e ≤ |w.value| ∧ |w.value| < 10 ^ (e + 1)) ∧
      if -4 ≤ e ∧ e < 16 then w.power? = none ∧ w.fraction ≠ []
      else w.power?.isSome = true ∧ w.exponent = e := by
  obtain ⟨s, k, rfl⟩ := exists_eq_finite hx
  obtain ⟨w, rfl, hwrite, hshows⟩ := Layout.exists_shows Layout.exact s (shortest k)
  obtain ⟨p, hshortest⟩ := exists_isShortest_signed w.negative k
  have htext : (finite w.negative k).text = String.ofList w.chars := hwrite
  rw [← hshows.value_eq] at hshortest
  refine ⟨w, p, (shortest k).magnitude, htext, htext ▸ namedBy_text _, hshows.wellFormed, rfl,
    hshortest, ?_, ?_⟩
  · have habs : |w.value| = (shortest k).value := by
      rw [hshows.value_eq, abs_mul, abs_of_nonneg (shortest k).value_nonneg]
      cases w.negative <;> simp
    rw [habs]
    split
    · rename_i hzero
      exact if_pos (coefficient_shortest_eq_zero_iff.2 (value_eq_zero_iff.1 hzero))
    · rename_i hnonzero
      refine Decimal.magnitude_bounds ?_
      rwa [Ne, coefficient_shortest_eq_zero_iff, ← value_eq_zero_iff]
  · have hform := hshows.form
    have hlast := hshows.last
    have hpoint : Layout.exact.pointZero = true := rfl
    rw [hpoint, Bool.true_and] at hlast
    simp only [Layout.isFixed_iff] at hform hlast
    have hbelow : Layout.exact.fixedBelow = 16 := rfl
    rw [hbelow] at hform hlast
    split
    · rename_i hfixed
      rw [if_pos hfixed] at hform hlast
      exact ⟨hform, hlast⟩
    · rename_i hfixed
      rw [if_neg hfixed] at hform
      exact hform

/-- Below zero, the number next to it is minus `2 ^ (-1074)`. It has the text of a decimal that is
    not near to it, as numbers go: one digit is enough to tell it from its neighbours. -/
theorem text_shortest_leastNegative :
    let x : Binary64 := .finite true ⟨1, by decide⟩
    x.isFinite = true ∧ x.text = "-5e-324" ∧
      ∃ (w : WrittenNumber) (p : ℕ), String.ofList w.chars = "-5e-324" ∧
        x.NamedBy "-5e-324" ∧ w.WellFormed ∧ w.negative = true ∧ x.IsShortest p w.value := by
  intro x
  have htext : x.text = "-5e-324" := by decide +kernel
  obtain ⟨w, p, _, hchars, hnamed, hformed, hsign, hshortest, _⟩ := text_shortest x rfl
  rw [← hchars, htext] at hnamed
  exact ⟨rfl, htext, w, p, hchars.symm.trans htext, hnamed, hformed, hsign, hshortest⟩

end Binary64

end Calculator
