import Calculator.Proofs.Figures

/-!
# Written numbers

The text of a number, taken apart: digits with a point among them, and in the scientific form a
power of ten (`WrittenNumber`). Apart from a layout, such a text denotes a rational
(`WrittenNumber.value`), and what is written for a decimal denotes the decimal
(`Layout.exists_shows`).
-/

namespace Calculator

attribute [local instance (2000)] instPowNat

/-- The parts of a written number. -/
structure WrittenNumber where
  negative : Bool
  /-- The digits before the point. -/
  whole : List Char
  /-- The digits after the point, which is not written if there are none. -/
  fraction : List Char
  /-- In the scientific form, the power of ten: whether it has a minus, and its digits. -/
  power? : Option (Bool × List Char)

namespace WrittenNumber

/-- The characters of a power of ten. -/
def powerChars : Option (Bool × List Char) → List Char
  | none => []
  | some (negative, digits) => 'e' :: (if negative then '-' else '+') :: digits

/-- The characters of the number. -/
def chars (w : WrittenNumber) : List Char :=
  (if w.negative then ['-'] else []) ++ w.whole ++ Layout.pointed w.fraction ++ powerChars w.power?

/-- The exponent of the power of ten, `0` without one. -/
def exponent (w : WrittenNumber) : ℤ :=
  match w.power? with
  | none => 0
  | some (negative, digits) => (if negative then -1 else 1) * Nat.ofDigitChars 10 digits 0

/-- The rational that the number denotes. -/
def value (w : WrittenNumber) : ℚ :=
  (if w.negative then -1 else 1) * (Decimal.ofNumeral w.whole w.fraction).value * 10 ^ w.exponent

/-- The parts are digits, and there are some before the point: one of them in the scientific
    form, where the power of ten has two digits or more. -/
structure WellFormed (w : WrittenNumber) : Prop where
  whole_ne_nil : w.whole ≠ []
  isDigit : ∀ c ∈ w.whole ++ w.fraction, c.isDigit = true
  scientific : ∀ negative digits, w.power? = some (negative, digits) →
    w.whole.length = 1 ∧ 2 ≤ digits.length ∧ ∀ c ∈ digits, c.isDigit = true

end WrittenNumber

namespace Layout

/-- A written number shows a decimal: in the form that the layout has for its magnitude, with the
    decimal for its value, and after the point with its last figure, or the zero that follows
    every point. -/
structure Shows (l : Layout) (d : Decimal) (w : WrittenNumber) : Prop where
  wellFormed : w.WellFormed
  value_eq : w.value = (if w.negative then -1 else 1) * d.value
  form : if l.isFixed d.magnitude then w.power? = none
    else w.power?.isSome = true ∧ w.exponent = d.magnitude
  last : if l.pointZero && l.isFixed d.magnitude then w.fraction ≠ []
    else w.fraction = [] ∨ w.fraction.getLast? = d.figures.getLast?

variable (l : Layout) (negative : Bool) (d : Decimal)

/-- The fixed form denotes the decimal. -/
theorem exists_shows_fixed (h : l.isFixed d.magnitude = true) :
    ∃ w : WrittenNumber, w.negative = negative ∧ l.write negative d = String.ofList w.chars ∧
      l.Shows d w := by
  obtain ⟨whole, fraction, hparts⟩ :=
    exists_fixedParts (fun _ => Decimal.isDigit_of_mem_figures) d.figures_ne_nil l d.magnitude
  have hchars : l.chars d = whole ++ pointed fraction := by rw [chars, if_pos h, hparts.fixed_eq]
  let w : WrittenNumber := ⟨negative, whole, fraction, none⟩
  refine ⟨w, rfl, ?_, ⟨hparts.whole_ne_nil, hparts.isDigit, fun _ _ hpower => ?_⟩, ?_, ?_, ?_⟩
  · rw [write, hchars]
    cases negative <;> simp [WrittenNumber.chars, WrittenNumber.powerChars, w]
  · cases hpower
  · rw [WrittenNumber.value, hparts.value_eq, ← d.value_eq_figures]
    exact mul_one _
  · rw [if_pos h]
  · rw [h, Bool.and_true]
    exact hparts.last

/-- The scientific form denotes the decimal. -/
theorem exists_shows_scientific (h : l.isFixed d.magnitude = false) :
    ∃ w : WrittenNumber, w.negative = negative ∧ l.write negative d = String.ofList w.chars ∧
      l.Shows d w := by
  obtain ⟨c, fraction, hfigures⟩ := List.exists_cons_of_ne_nil d.figures_ne_nil
  have hdigits : ∀ c ∈ d.figures, c.isDigit = true := fun _ => Decimal.isDigit_of_mem_figures
  have hchars : l.chars d = [c] ++ pointed fraction ++ power d.magnitude := by
    rw [chars, h, if_neg Bool.false_ne_true, scientific_eq d.figures_ne_nil, hfigures]
    rfl
  let w : WrittenNumber := ⟨negative, [c], fraction,
    some (decide (d.magnitude < 0), (Nat.toDigits 10 d.magnitude.natAbs).leftpad 2 '0')⟩
  have hexponent : w.exponent = d.magnitude := by
    show (if decide (d.magnitude < 0) = true then -1 else 1) * ((Nat.ofDigitChars 10
      ((Nat.toDigits 10 d.magnitude.natAbs).leftpad 2 '0') 0 : ℕ) : ℤ) = _
    rw [ofDigitChars_leftpad]
    simp only [decide_eq_true_eq]
    split <;> omega
  refine ⟨w, rfl, ?_, ⟨List.cons_ne_nil _ _, ?_, ?_⟩, ?_, ?_, ?_⟩
  · rw [write, hchars, power]
    cases negative <;> simp [WrittenNumber.chars, WrittenNumber.powerChars, w]
  · rw [hfigures] at hdigits
    exact hdigits
  · rintro s digits ⟨⟩
    refine ⟨rfl, ?_, List.forall_mem_append.2 ⟨isDigit_of_mem_replicate _, fun _ hc =>
      Nat.isDigit_of_mem_toDigits (by decide) (by decide) hc⟩⟩
    rw [List.length_leftpad]
    exact Nat.le_max_left _ _
  · have hpower : d.magnitude + 1 - d.figures.length = -(fraction.length : ℤ) + d.magnitude := by
      rw [hfigures, List.length_cons]
      omega
    rw [WrittenNumber.value, hexponent, Decimal.value_ofNumeral, d.value_eq_figures, hpower,
      zpow_add₀ (by norm_num), hfigures, List.singleton_append, mul_assoc, mul_assoc]
  · rw [h, if_neg Bool.false_ne_true]
    exact ⟨rfl, hexponent⟩
  · rw [h, Bool.and_false, if_neg Bool.false_ne_true, hfigures]
    cases fraction with
    | nil => exact .inl rfl
    | cons c' fraction => exact .inr rfl

/-- What is written for a decimal shows it. -/
theorem exists_shows :
    ∃ w : WrittenNumber, w.negative = negative ∧ l.write negative d = String.ofList w.chars ∧
      l.Shows d w := by
  cases h : l.isFixed d.magnitude with
  | true => exact exists_shows_fixed l negative d h
  | false => exact exists_shows_scientific l negative d h

end Layout

end Calculator
