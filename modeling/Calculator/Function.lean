import Calculator.Elementary
import Calculator.Fault

/-!
# Named functions

The functions that an expression may call, each of one argument. Some have a
restricted domain, which is tested before anything is computed; an argument that
is no number is in no domain. What is computed is then sorted: an infinity from
a finite argument is an overflow for the exponential, and otherwise, like a
result that is no number, the sign of an argument outside the domain.
-/

namespace Calculator

/-- The functions that can be called. -/
inductive Function
  | abs
  | cos
  | exp
  | ln
  | log10
  | sin
  | sqrt
  | tan
  deriving DecidableEq, Repr

/-- A restriction on arguments, and what is said when it is not met. -/
structure Domain where
  accepts : Binary64 → Bool
  message : String

namespace Function

/-- All functions, in the order of their names. -/
def all : List Function := [abs, cos, exp, ln, log10, sin, sqrt, tan]

/-- The name by which a function is called. -/
def name : Function → String
  | abs => "abs"
  | cos => "cos"
  | exp => "exp"
  | ln => "ln"
  | log10 => "log10"
  | sin => "sin"
  | sqrt => "sqrt"
  | tan => "tan"

/-- The names of all functions. -/
def names : List String := all.map name

/-- The function of a name. -/
def ofName? (s : String) : Option Function := all.find? (·.name == s)

/-- The restriction on the arguments of a function. -/
def domain? : Function → Option Domain
  | sqrt => some ⟨Binary64.isNonnegative, "Square root of negative number"⟩
  | ln => some ⟨Binary64.isPositive, "Natural logarithm of non-positive number"⟩
  | log10 => some ⟨Binary64.isPositive, "Logarithm of non-positive number"⟩
  | _ => none

/-- Whether an argument meets the restriction; without one, all do. -/
def accepts (f : Function) (x : Binary64) : Bool :=
  match f.domain? with
  | none => true
  | some d => d.accepts x

/-- The function on numbers. -/
def compute (m : Elementary) : Function → Binary64 → Binary64
  | abs => Binary64.abs
  | cos => m.cos
  | exp => m.exp
  | ln => m.ln
  | log10 => m.log10
  | sin => m.sin
  | sqrt => m.sqrt
  | tan => m.tan

/-- Whether a finite argument may be too large for the result. -/
def mayOverflow : Function → Bool
  | exp => true
  | _ => false

/-- The fault of an argument for which a function has no value. -/
def undefinedAt (f : Function) (x : Binary64) : Fault :=
  .domain ("Math domain error in " ++ f.name) f.name x

/-- A result for an argument, if it is a value, and otherwise why there is
    none. -/
def settle (f : Function) (x result : Binary64) : Except Fault Binary64 :=
  if result.isNaN then .error (f.undefinedAt x)
  else if result.isInfinite && x.isFinite then
    .error (if f.mayOverflow then .overflow else f.undefinedAt x)
  else .ok result

/-- The value of a function, or why there is none. -/
def apply (m : Elementary) (f : Function) (x : Binary64) : Except Fault Binary64 :=
  if x.isNaN then .error (f.undefinedAt x)
  else match f.domain? with
    | none => f.settle x (f.compute m x)
    | some d =>
      if d.accepts x then f.settle x (f.compute m x)
      else .error (.domain d.message f.name x)

theorem mem_all (f : Function) : f ∈ all := by cases f <;> decide

/-- A function is found by its name. -/
theorem ofName?_name (f : Function) : ofName? f.name = some f := by cases f <;> decide

/-- Only names of functions are found. -/
theorem name_of_ofName? {s : String} {f : Function} (h : ofName? s = some f) : f.name = s := by
  have := List.find?_some h
  simpa using this

end Function

/-- The function of a name, or the fault of calling it. -/
def lookupFunction (name : String) : Except Fault Function :=
  match Function.ofName? name with
  | some f => .ok f
  | none => .error (.unknownFunction name Function.names)

/-- The value of a named function, or why there is none. -/
def applyNamed (m : Elementary) (name : String) (x : Binary64) : Except Fault Binary64 :=
  match lookupFunction name with
  | .ok f => f.apply m x
  | .error e => .error e

end Calculator
