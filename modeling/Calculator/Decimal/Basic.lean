import Calculator.Binary64.Nearest

/-!
# Decimals

A decimal is a natural, its coefficient, times a power of ten. Numbers are read
from decimals and written as decimals:

* a numeral, a run of digits with a point in it, is a decimal (`ofNumeral`);
* every finite number is a decimal exactly, since a half is one (`exact`);
* what is written is a decimal of few digits near to it, such as the one that
  `roundTo` finds for a given number of significant digits.
-/

namespace Calculator

attribute [local instance (2000)] instPowNat

/-- The number `coefficient * 10 ^ exponent`. -/
structure Decimal where
  coefficient : Nat
  exponent : Int
  deriving DecidableEq, Repr

/-- The number of decimal digits of a natural, `1` for zero. -/
def digitCount (n : Nat) : Nat := (Nat.toDigits 10 n).length

namespace Decimal

/-- The rational that a decimal is. -/
def value (d : Decimal) : Rat :=
  match d.exponent with
  | .ofNat e => (d.coefficient * 10 ^ e : Nat)
  | .negSucc e => (d.coefficient : Rat) / (10 ^ (e + 1) : Nat)

/-- The decimal of a run of digits with a point between `whole` and
    `fraction`. -/
def ofNumeral (whole fraction : List Char) : Decimal where
  coefficient := Nat.ofDigitChars 10 (whole ++ fraction) 0
  exponent := -fraction.length

/-- The number nearest to a decimal with a sign. -/
def toBinary64 (negative : Bool) (d : Decimal) : Binary64 :=
  Binary64.ofDecimal negative d.coefficient d.exponent

/-- The exact decimal of the magnitude of a rank: a step of `2 ^ (-k)` is
    `5 ^ k * 10 ^ (-k)`. -/
def exact (rank : Rank) : Decimal :=
  let halvings := 1074 - doublings rank
  ⟨significand rank * 2 ^ (doublings rank - 1074) * 5 ^ halvings, -halvings⟩

/-- The next decimal at or below `d` without its last `k` places. -/
def floorAt (k : Nat) (d : Decimal) : Decimal := ⟨d.coefficient / 10 ^ k, d.exponent + k⟩

/-- The next decimal above `d` without its last `k` places. -/
def aboveAt (k : Nat) (d : Decimal) : Decimal := ⟨d.coefficient / 10 ^ k + 1, d.exponent + k⟩

/-- The nearest decimal without the last `k` places of `d`, and the one of even
    coefficient if two are equally near. -/
def nearestAt (k : Nat) (d : Decimal) : Decimal :=
  ⟨roundDiv d.coefficient (10 ^ k), d.exponent + k⟩

/-- The nearest decimal of `n` digits. (Its coefficient may be `10 ^ n`, after a
    carry.) -/
def roundTo (n : Nat) (d : Decimal) : Decimal := d.nearestAt (digitCount d.coefficient - n)

/-- The digits of a decimal from its first to its last that is not zero; the
    one digit of zero. -/
def figures (d : Decimal) : List Char :=
  if d.coefficient = 0 then ['0']
  else ((Nat.toDigits 10 d.coefficient).reverse.dropWhile (· == '0')).reverse

/-- The power of ten that the first digit counts; `0` for zero. -/
def magnitude (d : Decimal) : Int :=
  if d.coefficient = 0 then 0 else d.exponent + digitCount d.coefficient - 1

/-- Rounding ends on one of the two neighbours. -/
theorem nearestAt_eq_or (k : Nat) (d : Decimal) :
    d.nearestAt k = d.floorAt k ∨ d.nearestAt k = d.aboveAt k := by
  unfold nearestAt floorAt aboveAt
  rcases roundDiv_eq_or d.coefficient (10 ^ k) with h | h <;> simp [h]

end Decimal

end Calculator
