import Calculator.Binary64.Arithmetic
import Calculator.Elementary
import Calculator.Fault

/-!
# Operators

The operators between two numbers. An operation has a value only if its result
is finite; a zero on the right of a division or a remainder is noticed before
anything is computed. The two levels bind differently, so a level is read by its
own table of characters (`Operator.additive?`, `Operator.multiplicative?`).

The power stands apart: it binds to the right, has two spellings, and its faults
depend on why the machine has no finite result. For operands that are not both
finite its value is fixed by the standard (`limitPower`).
-/

namespace Calculator

/-- The operators that group to the left. -/
inductive Operator
  | add
  | sub
  | mul
  | div
  | mod
  deriving DecidableEq, Repr

namespace Operator

/-- The operators between terms. -/
def additive? : Char → Option Operator
  | '+' => some add
  | '-' => some sub
  | _ => none

/-- The operators between factors. -/
def multiplicative? : Char → Option Operator
  | '*' => some mul
  | '/' => some div
  | '%' => some mod
  | _ => none

/-- The character of an operator. -/
def char : Operator → Char
  | add => '+'
  | sub => '-'
  | mul => '*'
  | div => '/'
  | mod => '%'

theorem additive?_eq_some {c : Char} {o : Operator} (h : additive? c = some o) : o.char = c := by
  unfold additive? at h
  split at h <;> simp_all [char] <;> subst h <;> rfl

theorem multiplicative?_eq_some {c : Char} {o : Operator} (h : multiplicative? c = some o) :
    o.char = c := by
  unfold multiplicative? at h
  split at h <;> simp_all [char] <;> subst h <;> rfl

end Operator

/-- The remainder; it has no value for an infinite dividend or a zero divisor,
    if the other operand is a number. -/
def modulo (x y : Binary64) : Except Fault Binary64 :=
  if (x.isInfinite && !y.isNaN) || (y.isZero && !x.isNaN) then
    .error (.domain "Modulo of infinite value" "fmod" x)
  else .ok (x % y)

/-- Refuses infinite results. -/
def checkFinite (x : Binary64) : Except Fault Binary64 :=
  if x.isInfinite then .error .overflow else .ok x

/-- The result of an operation before it is checked, or why there is none. -/
def Operator.result (x y : Binary64) : Operator → Except Fault Binary64
  | .add => .ok (x + y)
  | .sub => .ok (x - y)
  | .mul => .ok (x * y)
  | .div => if y.isZero then .error .divisionByZero else .ok (x / y)
  | .mod => if y.isZero then .error .moduloByZero else modulo x y

/-- The value of an operation, or why there is none. -/
def Operator.apply (o : Operator) (x y : Binary64) : Except Fault Binary64 :=
  o.result x y >>= checkFinite

/-! ## Powers -/

/-- The rank of one. -/
def rankOfOne : Nat := 1023 * binade

/-- The number one. -/
def Binary64.one : Binary64 := .finite false ⟨rankOfOne, by decide⟩

/-- The power of operands that are not both finite:

    * anything to a zero, and one to anything, is one;
    * otherwise a NaN operand makes a NaN;
    * an infinite base grows or shrinks by the sign of the exponent, and keeps
      its sign for odd exponents;
    * an infinite exponent drives the base away from one, or to zero. -/
def limitPower (base exponent : Binary64) : Binary64 :=
  if exponent.isZero || base == .one then .one
  else match base, exponent with
    | .nan, _ => .nan
    | _, .nan => .nan
    | .infinite s, y =>
      let negative := s && y.isOddInteger
      if y.isPositive then .infinite negative else .zero negative
    | .finite _ k, y =>
      if k.val = rankOfOne then .one
      else if y.isPositive == (rankOfOne < k.val) then .infinite false
      else .zero false

/-- The power, or why there is none: a finite base and exponent may have no
    real power, or one that is too large. -/
def power (m : Elementary) (base exponent : Binary64) : Except Fault Binary64 :=
  if base.isFinite && exponent.isFinite then
    let result := m.pow base exponent
    if result.isNaN then .error (.undefinedPower base exponent)
    else if result.isInfinite then
      .error (if base.isZero then .undefinedPower base exponent else .overflow)
    else .ok result
  else .ok (limitPower base exponent)

/-- An operation has finite values only, if its result is a number. -/
theorem isInfinite_of_checkFinite {x y : Binary64} (h : checkFinite x = .ok y) :
    y.isInfinite = false := by
  unfold checkFinite at h
  split at h
  · simp at h
  · rename_i hx
    cases h
    simpa using hx

end Calculator
