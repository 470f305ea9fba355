import Calculator.Decimal.Shortest

/-!
# Layouts

The text of a number has two forms. In the *fixed* form the digits stand around
a point (`1234.5`, `0.00012`); in the *scientific* form one digit stands before
the point and the power of ten follows, signed and with at least two digits
(`1.5e+300`, `1e-05`). A `Layout` says which magnitudes are written in the fixed
form, and whether whole numbers keep a `.0` there.

* `Binary64.text` writes the shortest digits that are read back, the way numbers
  are named in reports (`Layout.exact`).
* `Binary64.format` writes a given number of significant digits, the way results
  are printed (`Layout.rounded`).
-/

namespace Calculator

/-- How the digits of a decimal are laid out. -/
structure Layout where
  /-- The fixed form is for first digits at `10 ^ (-4)` and above, and below
      `10 ^ fixedBelow`. -/
  fixedBelow : Int
  /-- Whether a whole number in the fixed form is followed by `.0`. -/
  pointZero : Bool

namespace Layout

/-- Numbers named in reports: fixed below `10 ^ 16`, always with a fraction. -/
def exact : Layout := ⟨16, true⟩

/-- Results of `precision` digits: fixed if all digits before the point are
    significant, and without the point if nothing follows it. -/
def rounded (precision : Nat) : Layout := ⟨precision, false⟩

/-- The least magnitude that is written in the fixed form. -/
def fixedFrom : Int := -4

/-- The form of a number whose first digit is at `10 ^ magnitude`. -/
def isFixed (l : Layout) (magnitude : Int) : Bool :=
  fixedFrom ≤ magnitude && magnitude < l.fixedBelow

/-- The digits around a point, the first of them at `10 ^ magnitude`. -/
def fixed (l : Layout) (figures : List Char) (magnitude : Int) : List Char :=
  match magnitude with
  | .ofNat x =>
    let whole := (figures.take (x + 1)).rightpad (x + 1) '0'
    match figures.drop (x + 1) with
    | [] => if l.pointZero then whole ++ ['.', '0'] else whole
    | fraction => whole ++ '.' :: fraction
  | .negSucc x => '0' :: '.' :: (List.replicate x '0' ++ figures)

/-- The power of ten in the scientific form. -/
def power (magnitude : Int) : List Char :=
  'e' :: (if magnitude < 0 then '-' else '+') ::
    (Nat.toDigits 10 magnitude.natAbs).leftpad 2 '0'

/-- One digit before the point, then the power of ten of the first digit. -/
def scientific (figures : List Char) (magnitude : Int) : List Char :=
  match figures with
  | [] => power magnitude
  | [d] => d :: power magnitude
  | d :: fraction => d :: '.' :: fraction ++ power magnitude

/-- The characters of a decimal. -/
def chars (l : Layout) (d : Decimal) : List Char :=
  if l.isFixed d.magnitude then l.fixed d.figures d.magnitude
  else scientific d.figures d.magnitude

/-- The text of a decimal with a sign. -/
def write (l : Layout) (negative : Bool) (d : Decimal) : String :=
  String.ofList (if negative then '-' :: l.chars d else l.chars d)

end Layout

namespace Binary64

/-- The text of a number: a decimal for its magnitude, or the name of what has
    none. -/
def write (l : Layout) (decimal : Rank → Decimal) : Binary64 → String
  | nan => "nan"
  | infinite s => if s then "-inf" else "inf"
  | finite s k => l.write s (decimal k)

/-- The shortest text that is read back as the number. -/
def text (x : Binary64) : String := x.write Layout.exact shortest

end Binary64

/-- Why a number of significant digits is refused. -/
inductive PrecisionError
  | negative
  | tooBig
  | tooManyDigits
  deriving DecidableEq, Repr

/-- The message of a refused precision. -/
def PrecisionError.message : PrecisionError → String
  | negative => "Format specifier missing precision"
  | tooBig => "precision too big"
  | tooManyDigits => "Too many decimal digits in format string"

attribute [local instance (2000)] instPowNat in
/-- The number of significant digits for a precision: at least one, and below
    `2 ^ 31`. -/
def significantDigits (precision : Int) : Except PrecisionError Nat :=
  if precision < 0 then .error .negative
  else if precision < 2 ^ (31 : Nat) then .ok (max 1 precision.toNat)
  else if precision < 2 ^ (63 : Nat) then .error .tooBig
  else .error .tooManyDigits

namespace Binary64

/-- The number rounded to `n` significant digits. -/
def formatDigits (n : Nat) (x : Binary64) : String :=
  x.write (Layout.rounded n) fun k => (Decimal.exact k).roundTo n

/-- The number as results are printed. -/
def format (precision : Int) (x : Binary64) : Except PrecisionError String :=
  (significantDigits precision).map fun n => x.formatDigits n

end Binary64

end Calculator
