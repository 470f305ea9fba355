import Calculator.Decimal.Basic
import Calculator.Text.Integer

/-!
# Reading decimals

Numbers outside expressions are written with an optional sign and an optional
power of ten, and may be an infinity or the NaN. All that `Binary64.text` and
`Binary64.format` write can be read (`Binary64.read?_text`, `Binary64.read?_format`).
-/

namespace Calculator

/-- The integer that a whole text spells. -/
def readInteger? (cs : List Char) : Option Int :=
  let (negative, ds) := Text.splitSign cs
  if ds.isEmpty || !ds.all Char.isDigit then none
  else
    let n : Int := Nat.ofDigitChars 10 ds 0
    some (if negative then -n else n)

namespace Decimal

/-- The digits after a point, if there is one, and the rest. -/
def splitFraction : List Char → List Char × List Char
  | '.' :: cs => (cs.takeWhile Char.isDigit, cs.dropWhile Char.isDigit)
  | cs => ([], cs)

/-- The power of ten that a whole text spells, `0` if there is none. -/
def readPower? : List Char → Option Int
  | [] => some 0
  | e :: cs => if e = 'e' || e = 'E' then readInteger? cs else none

/-- The decimal that a whole text without sign spells, in either form. -/
def read? (cs : List Char) : Option Decimal :=
  let whole := cs.takeWhile Char.isDigit
  let (fraction, rest) := splitFraction (cs.dropWhile Char.isDigit)
  if whole.isEmpty && fraction.isEmpty then none
  else
    let d := ofNumeral whole fraction
    (readPower? rest).map fun power => { d with exponent := d.exponent + power }

end Decimal

namespace Binary64

/-- The number that a text spells. -/
def read? (s : String) : Option Binary64 :=
  let (negative, cs) := Text.splitSign s.toList
  let word := cs.map Char.toLower
  if word = "inf".toList || word = "infinity".toList then some (infinite negative)
  else if word = "nan".toList then some nan
  else (Decimal.read? cs).map (Decimal.toBinary64 negative)

end Binary64

end Calculator
