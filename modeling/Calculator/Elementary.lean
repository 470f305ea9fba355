import Calculator.Binary64.Word

/-!
# Elementary functions

The functions of analysis that a machine computes for binary64 numbers. Nothing
is assumed about them here: whatever needs them takes them as a value of type
`Elementary`, and what is needed of them is said where it is needed.
-/

namespace Calculator

/-- A machine's elementary functions. -/
structure Elementary where
  sin : Binary64 → Binary64
  cos : Binary64 → Binary64
  tan : Binary64 → Binary64
  sqrt : Binary64 → Binary64
  exp : Binary64 → Binary64
  /-- The natural logarithm. -/
  ln : Binary64 → Binary64
  log10 : Binary64 → Binary64
  /-- The power of a base to an exponent. -/
  pow : Binary64 → Binary64 → Binary64

/-- A function on machine numbers, as one on numbers. -/
def onMachine (f : Float → Float) (x : Binary64) : Binary64 := .ofFloat (f x.toFloat)

/-- The elementary functions of the machine that runs this. -/
def Elementary.machine : Elementary where
  sin := onMachine Float.sin
  cos := onMachine Float.cos
  tan := onMachine Float.tan
  sqrt := onMachine Float.sqrt
  exp := onMachine Float.exp
  ln := onMachine Float.log
  log10 := onMachine Float.log10
  pow x y := .ofFloat (Float.pow x.toFloat y.toFloat)

end Calculator
