import Calculator.Grammar.Tree
import Calculator.Proofs.Rounding
import Calculator.Proofs.Writing

/-!
# What written numbers are worth

A decimal is its figures, times the power of ten that is left when they are read as one
natural (`Decimal.value_eq_figures`). In the fixed form its figures stand around the point with
just this value, and zeros are put where the point needs them (`Layout.FixedParts`); in the
scientific form one figure is before the point, and then the power of ten follows
(`Layout.scientific_eq`). Up to there, both forms are numerals (`Layout.exists_numeral_fixed`,
`Layout.exists_numeral_scientific`).
-/

namespace Calculator

attribute [local instance (2000)] instPowNat

/-- Digits are worth less than one after as many zeros. -/
theorem ofDigitChars_lt {cs : List Char} (h : ∀ c ∈ cs, c.isDigit = true) (init : Nat) :
    Nat.ofDigitChars 10 cs init < (init + 1) * 10 ^ cs.length := by
  induction cs generalizing init with
  | nil => simp
  | cons c cs ih =>
    obtain ⟨hc, hcs⟩ := List.forall_mem_cons.1 h
    have hdigit : c.toNat - '0'.toNat ≤ 9 := Nat.sub_le_of_le_add (Text.toNat_of_isDigit hc).2
    rw [Nat.ofDigitChars_cons, List.length_cons, Nat.pow_succ, Nat.mul_comm (10 ^ _),
      ← Nat.mul_assoc]
    refine Nat.lt_of_lt_of_le (ih hcs _) (Nat.mul_le_mul_right _ ?_)
    omega

namespace Decimal

/-- What is not among the figures are zeros at the end. -/
theorem exists_toDigits_eq {d : Decimal} (h : d.coefficient ≠ 0) :
    ∃ z, Nat.toDigits 10 d.coefficient = d.figures ++ List.replicate z '0' := by
  rw [figures, if_neg h]
  generalize Nat.toDigits 10 d.coefficient = ds
  -- The zeros at the end are those at the start of the reverse.
  refine ⟨(ds.reverse.takeWhile (· == '0')).length, ?_⟩
  have hzeros : ds.reverse.takeWhile (· == '0') =
      List.replicate (ds.reverse.takeWhile (· == '0')).length '0' :=
    List.eq_replicate_of_mem fun c hc => by
      simpa using List.all_eq_true.1 List.all_takeWhile c hc
  have hsplit := List.takeWhile_append_dropWhile (p := (· == '0')) (l := ds.reverse)
  rw [← List.reverse_replicate, ← hzeros, ← List.reverse_append, hsplit, List.reverse_reverse]

/-- There is always a figure. -/
theorem figures_ne_nil (d : Decimal) : d.figures ≠ [] := by
  by_cases h : d.coefficient = 0
  · rw [figures, if_pos h]
    exact List.cons_ne_nil _ _
  · obtain ⟨z, hz⟩ := exists_toDigits_eq h
    intro hnil
    rw [hnil, List.nil_append] at hz
    have hvalue := congrArg (Nat.ofDigitChars 10 · 0) hz
    rw [Nat.ofDigitChars_ten_toDigits, Nat.ofDigitChars_replicate_zero, Nat.mul_zero] at hvalue
    exact h hvalue

/-- The last figure is a zero only for zero itself. -/
theorem getLast?_figures {d : Decimal} (h : d.coefficient ≠ 0) :
    d.figures.getLast? ≠ some '0' := by
  rw [figures, if_neg h, List.getLast?_reverse]
  intro hzero
  have hnot := List.head?_dropWhile_not (· == '0') (Nat.toDigits 10 d.coefficient).reverse
  rw [hzero] at hnot
  exact absurd hnot (by decide)

/-- A decimal is its figures read as a natural, times a power of ten. -/
theorem value_eq_figures (d : Decimal) :
    d.value =
      Nat.ofDigitChars 10 d.figures 0 * (10 : ℚ) ^ (d.magnitude + 1 - d.figures.length) := by
  by_cases h : d.coefficient = 0
  · rw [value_eq, figures, if_pos h, h, Nat.cast_zero, zero_mul]
    show (0 : ℚ) = ((0 : Nat) : ℚ) * _
    rw [Nat.cast_zero, zero_mul]
  · obtain ⟨z, hz⟩ := exists_toDigits_eq h
    have hcoefficient : d.coefficient = 10 ^ z * Nat.ofDigitChars 10 d.figures 0 := by
      have hvalue := congrArg (Nat.ofDigitChars 10 · 0) hz
      rwa [Nat.ofDigitChars_ten_toDigits, Nat.ofDigitChars_append,
        Nat.ofDigitChars_replicate_zero] at hvalue
    have hmagnitude : d.magnitude + 1 - d.figures.length = d.exponent + z := by
      have hlength := congrArg List.length hz
      rw [List.length_append, List.length_replicate] at hlength
      rw [magnitude, if_neg h, digitCount, hlength]
      omega
    rw [value_eq, hcoefficient, hmagnitude, zpow_add₀ (by norm_num), zpow_natCast]
    push_cast
    ring

theorem value_ofNumeral (whole fraction : List Char) :
    (ofNumeral whole fraction).value =
      Nat.ofDigitChars 10 (whole ++ fraction) 0 * (10 : ℚ) ^ (-fraction.length : Int) := by
  rw [value_eq, ofNumeral]

theorem value_ofNumeral_nil (whole : List Char) :
    (ofNumeral whole []).value = Nat.ofDigitChars 10 whole 0 := by
  rw [value_ofNumeral, List.append_nil, List.length_nil, Nat.cast_zero, neg_zero, zpow_zero,
    mul_one]

/-- A zero after the point does not matter. -/
theorem value_ofNumeral_zero (whole : List Char) :
    (ofNumeral whole ['0']).value = (ofNumeral whole []).value := by
  have hzero : Nat.ofDigitChars 10 ['0'] (Nat.ofDigitChars 10 whole 0) =
      10 * Nat.ofDigitChars 10 whole 0 := Nat.ofDigitChars_cons
  rw [value_ofNumeral, value_ofNumeral_nil, Nat.ofDigitChars_append, hzero, List.length_singleton,
    Nat.cast_one, zpow_neg_one]
  push_cast
  rw [mul_comm (10 : ℚ), mul_inv_cancel_right₀ (by norm_num)]

end Decimal

namespace Layout

open Grammar

/-- A point with the digits after it, if there are any. -/
def pointed : List Char → List Char
  | [] => []
  | fraction => '.' :: fraction

theorem pointed_of_ne_nil {fraction : List Char} (h : fraction ≠ []) :
    pointed fraction = '.' :: fraction := by
  cases fraction with
  | nil => exact absurd rfl h
  | cons d fraction => rfl

/-- Digits with a point among them are a numeral. -/
theorem exists_numeral {whole fraction : List Char} (hne : whole ≠ [])
    (h : ∀ c ∈ whole ++ fraction, c.isDigit = true) :
    ∃ n : Numeral, whole ++ pointed fraction = n.chars ∧
      Decimal.ofNumeral n.parts.1 n.parts.2 = Decimal.ofNumeral whole fraction := by
  obtain ⟨hwhole, hfraction⟩ := List.forall_mem_append.1 h
  cases fraction with
  | nil => exact ⟨.whole ⟨whole, hwhole⟩ hne, List.append_nil _, rfl⟩
  | cons d fraction => exact ⟨.pointed ⟨whole, hwhole⟩ ⟨_, hfraction⟩ (.inl hne), rfl, rfl⟩

/-! ## The two forms -/

/-- The digits around the point in the fixed form. Their value is that of the figures; and
    after the point, the last of them is the last figure, or the zero that follows every
    point. -/
structure FixedParts (l : Layout) (figures : List Char) (magnitude : Int)
    (whole fraction : List Char) : Prop where
  fixed_eq : l.fixed figures magnitude = whole ++ pointed fraction
  whole_ne_nil : whole ≠ []
  isDigit : ∀ c ∈ whole ++ fraction, c.isDigit = true
  value_eq : (Decimal.ofNumeral whole fraction).value =
    Nat.ofDigitChars 10 figures 0 * (10 : ℚ) ^ (magnitude + 1 - figures.length)
  last : if l.pointZero then fraction ≠ []
    else fraction = [] ∨ fraction.getLast? = figures.getLast?

variable {figures : List Char} (h : ∀ c ∈ figures, c.isDigit = true) (hne : figures ≠ [])

section

variable (l : Layout) {x : ℕ}
include h hne

/-- With all figures before the point, zeros fill up to it. -/
theorem fixedParts_of_le (hle : figures.length ≤ x + 1) :
    l.FixedParts figures x (figures ++ List.replicate (x + 1 - figures.length) '0')
      (if l.pointZero then ['0'] else []) := by
  refine ⟨?_, by simp [hne], ?_, ?_, ?_⟩
  · show l.fixed figures (Int.ofNat x) = _
    rw [fixed, List.drop_of_length_le hle, List.take_of_length_le hle, List.rightpad]
    cases l.pointZero with
    | false => exact (List.append_nil _).symm
    | true => rfl
  · refine List.forall_mem_append.2
      ⟨List.forall_mem_append.2 ⟨h, isDigit_of_mem_replicate _⟩, ?_⟩
    split
    · exact isDigit_of_mem_replicate 1
    · exact fun c hc => absurd hc List.not_mem_nil
  · have hexponent : (x + 1 - figures.length : Int) = ((x + 1 - figures.length : ℕ) : Int) := by
      omega
    have hzero : (Decimal.ofNumeral (figures ++ List.replicate (x + 1 - figures.length) '0')
        (if l.pointZero then ['0'] else [])).value =
          Nat.ofDigitChars 10 (figures ++ List.replicate (x + 1 - figures.length) '0') 0 := by
      split
      · rw [Decimal.value_ofNumeral_zero, Decimal.value_ofNumeral_nil]
      · rw [Decimal.value_ofNumeral_nil]
    rw [hzero, hexponent, zpow_natCast, Nat.ofDigitChars_append, Nat.ofDigitChars_replicate_zero]
    push_cast
    ring
  · cases l.pointZero with
    | false => exact .inl rfl
    | true => exact List.cons_ne_nil _ _

/-- Otherwise the point is among the figures. -/
theorem fixedParts_of_lt (hlt : x + 1 < figures.length) :
    l.FixedParts figures x (figures.take (x + 1)) (figures.drop (x + 1)) := by
  have hfraction : figures.drop (x + 1) ≠ [] := fun hnil =>
    Nat.not_le_of_lt hlt (List.drop_eq_nil_iff.1 hnil)
  refine ⟨?_, ?_, by rwa [List.take_append_drop], ?_, ?_⟩
  · have hpad : (figures.take (x + 1)).rightpad (x + 1) '0' = figures.take (x + 1) := by
      rw [List.rightpad, List.length_take, Nat.min_eq_left hlt.le, Nat.sub_self]
      exact List.append_nil _
    show l.fixed figures (Int.ofNat x) = _
    rw [fixed, hpad, pointed_of_ne_nil hfraction]
    split
    · rename_i hnil
      exact absurd hnil hfraction
    · rfl
  · exact fun hnil => hne ((List.take_eq_nil_iff.1 hnil).resolve_left (Nat.succ_ne_zero x))
  · have hexponent : (x + 1 - figures.length : Int) = -((figures.drop (x + 1)).length : Int) := by
      rw [List.length_drop]
      omega
    rw [Decimal.value_ofNumeral, hexponent, List.take_append_drop]
  · split
    · exact hfraction
    · rw [List.getLast?_drop, if_neg (Nat.not_le_of_lt hlt)]
      exact .inr rfl

/-- Below one, all figures are after the point, and zeros stand between. -/
theorem fixedParts_negSucc :
    l.FixedParts figures (Int.negSucc x) ['0'] (List.replicate x '0' ++ figures) := by
  have hfraction : List.replicate x '0' ++ figures ≠ [] := by simp [hne]
  refine ⟨?_, List.cons_ne_nil _ _, ?_, ?_, ?_⟩
  · rw [pointed_of_ne_nil hfraction]
    rfl
  · exact List.forall_mem_append.2 ⟨isDigit_of_mem_replicate 1,
      List.forall_mem_append.2 ⟨isDigit_of_mem_replicate x, h⟩⟩
  · have hexponent : (Int.negSucc x + 1 - figures.length : Int) =
        -((List.replicate x '0' ++ figures).length : Int) := by
      rw [List.length_append, List.length_replicate]
      omega
    rw [Decimal.value_ofNumeral, hexponent, List.singleton_append, Nat.ofDigitChars_cons,
      Nat.ofDigitChars_append, Nat.ofDigitChars_replicate_zero]
    rfl
  · split
    · exact hfraction
    · exact .inr (List.getLast?_append_of_ne_nil _ hne)

theorem exists_fixedParts (magnitude : Int) :
    ∃ whole fraction, l.FixedParts figures magnitude whole fraction := by
  cases magnitude with
  | ofNat x =>
    rcases Nat.lt_or_ge (x + 1) figures.length with hlt | hle
    · exact ⟨_, _, fixedParts_of_lt h hne l hlt⟩
    · exact ⟨_, _, fixedParts_of_le h hne l hle⟩
  | negSucc x => exact ⟨_, _, fixedParts_negSucc h hne l⟩

/-- The fixed form is a numeral with the value of the figures. -/
theorem exists_numeral_fixed (magnitude : Int) :
    ∃ n : Numeral, l.fixed figures magnitude = n.chars ∧
      (Decimal.ofNumeral n.parts.1 n.parts.2).value =
        Nat.ofDigitChars 10 figures 0 * (10 : ℚ) ^ (magnitude + 1 - figures.length) := by
  obtain ⟨whole, fraction, hparts⟩ := exists_fixedParts h hne l magnitude
  obtain ⟨n, hchars, hn⟩ := exists_numeral hparts.whole_ne_nil hparts.isDigit
  exact ⟨n, hparts.fixed_eq.trans hchars, hn ▸ hparts.value_eq⟩

end

/-- The digits in the power of ten are worth its magnitude, whatever zero is put before them. -/
theorem ofDigitChars_leftpad (n k : ℕ) :
    Nat.ofDigitChars 10 ((Nat.toDigits 10 n).leftpad k '0') 0 = n := by
  rw [List.leftpad, Nat.ofDigitChars_append, Nat.ofDigitChars_replicate_zero, Nat.mul_zero,
    Nat.ofDigitChars_ten_toDigits]

include hne in
/-- The scientific form has one digit before the point, and then a power of ten. -/
theorem scientific_eq (magnitude : Int) :
    scientific figures magnitude =
      figures.take 1 ++ pointed (figures.drop 1) ++ power magnitude :=
  match figures with
  | [] => absurd rfl hne
  | [_] => rfl
  | _ :: _ :: _ => rfl

include h hne in
/-- The scientific form is a numeral below ten, and then a power of ten. -/
theorem exists_numeral_scientific (magnitude : Int) :
    ∃ n : Numeral, scientific figures magnitude = n.chars ++ power magnitude ∧
      (Decimal.ofNumeral n.parts.1 n.parts.2).value < 10 := by
  rw [scientific_eq hne]
  obtain ⟨d, fraction, rfl⟩ := List.exists_cons_of_ne_nil hne
  obtain ⟨n, hchars, hn⟩ := exists_numeral (List.cons_ne_nil d []) h
  refine ⟨n, congrArg (· ++ power magnitude) hchars, ?_⟩
  have hlt := ofDigitChars_lt h 0
  rw [Nat.zero_add, Nat.one_mul, List.length_cons, Nat.pow_succ] at hlt
  have hcast : ((Nat.ofDigitChars 10 (d :: fraction) 0 : ℕ) : ℚ) < 10 ^ fraction.length * 10 := by
    exact_mod_cast hlt
  rw [hn, Decimal.value_ofNumeral, zpow_neg, zpow_natCast, ← div_eq_mul_inv,
    div_lt_iff₀ (by positivity)]
  exact lt_of_lt_of_eq hcast (mul_comm _ _)

end Layout

end Calculator
