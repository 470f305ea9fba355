import Calculator.Text.Blank
import Calculator.Text.DecimalDigit

/-!
# Integers

An integer is written with decimal digits of any script, with a sign or without,
and with blanks around it. Digits may be grouped by underscores, one at a time
and between digits only. The information separators are no blanks here, and an
integer of more than `maxDigits` digits is refused.
-/

namespace Calculator.Text

/-- A sign in front of a text, and the rest; without one, it is positive. -/
def splitSign : List Char → Bool × List Char
  | '-' :: cs => (true, cs)
  | '+' :: cs => (false, cs)
  | cs => (false, cs)

/-- The blanks that may stand around an integer. -/
def isIntegerBlank (c : Char) : Bool :=
  isBlank c && !(0x1C ≤ c.toNat && c.toNat ≤ 0x1F)

/-- The values of digits that are grouped by underscores; there has to be a digit
    at either end and on both sides of an underscore. -/
def digitGroups? : List Char → Option (List Nat)
  | [] => none
  | [c] => (digitValue? c).map fun d => [d]
  | c :: '_' :: cs => do return (← digitValue? c) :: (← digitGroups? cs)
  | c :: cs => do return (← digitValue? c) :: (← digitGroups? cs)

/-- The largest number of digits of an integer. -/
def maxDigits : Nat := 4300

/-- The natural of decimal digits. -/
def ofDigits (ds : List Nat) : Nat := ds.foldl (fun n d => 10 * n + d) 0

/-- The integer that a text spells. -/
def integer? (s : String) : Option Int := do
  let cs := ((s.toList.dropWhile isIntegerBlank).reverse.dropWhile isIntegerBlank).reverse
  let (negative, digits) := splitSign cs
  let ds ← digitGroups? digits
  if maxDigits < ds.length then none
  else
    let n : Int := ofDigits ds
    return if negative then -n else n

example : integer? " -1_000 " = some (-1000) := by decide +kernel
example : integer? "1__0" = none := by decide +kernel

end Calculator.Text
