import Calculator.Decimal.Layout

/-!
# Faults

Why an expression has no value. The causes are a closed set (`Fault`), of twelve
kinds (`Fault.Kind`), each with a code. A fault says what it is (`message`),
sometimes explains itself (`help?`), and sometimes suggests what to do about it
(`suggestions`). Where in which text it was found is no part of it: that is a
`Failure`.
-/

namespace Calculator

/-- Why an expression has no value. -/
inductive Fault
  /-- The text ended where an operand had to follow. -/
  | unexpectedEnd
  /-- A character that cannot stand where it does (`none` at the end of the
      text). -/
  | unexpectedCharacter (found : Option Char)
  /-- A group or, if `afterArgument`, a call is not closed. -/
  | unclosed (afterArgument : Bool)
  /-- A name is not followed by an opening parenthesis. -/
  | uncalled (name : String)
  /-- A point without digits. -/
  | malformedNumber
  | divisionByZero
  | moduloByZero
  /-- A function is not defined for its argument, for the given reason. -/
  | domain (reason name : String) (argument : Binary64)
  /-- A name that is not among the known functions. -/
  | unknownFunction (name : String) (known : List String)
  | undefinedPower (base exponent : Binary64)
  | overflow
  | nestingTooDeep
  deriving DecidableEq, Repr

namespace Fault

/-- The kinds of faults. -/
inductive Kind
  | unexpectedEnd
  | invalidExpression
  | missingClosingParenthesis
  | missingOpeningParenthesis
  | invalidNumber
  | divisionByZero
  | moduloByZero
  | domainError
  | unknownFunction
  | invalidPower
  | numericOverflow
  | nestingTooDeep
  deriving DecidableEq, Repr

namespace Kind

/-- All kinds, in the order of their codes. -/
def all : List Kind :=
  [unexpectedEnd, invalidExpression, missingClosingParenthesis, missingOpeningParenthesis,
    invalidNumber, divisionByZero, moduloByZero, domainError, unknownFunction, invalidPower,
    numericOverflow, nestingTooDeep]

/-- The code of a kind. -/
def code : Kind → String
  | unexpectedEnd => "E001"
  | invalidExpression => "E002"
  | missingClosingParenthesis => "E003"
  | missingOpeningParenthesis => "E004"
  | invalidNumber => "E005"
  | divisionByZero => "E006"
  | moduloByZero => "E007"
  | domainError => "E008"
  | unknownFunction => "E009"
  | invalidPower => "E010"
  | numericOverflow => "E011"
  | nestingTooDeep => "E012"

theorem mem_all (k : Kind) : k ∈ all := by cases k <;> decide

/-- Different kinds have different codes. -/
theorem code_injective {j k : Kind} (h : j.code = k.code) : j = k := by
  revert h
  cases j <;> cases k <;> decide

end Kind

/-- The kind of a fault. -/
def kind : Fault → Kind
  | unexpectedEnd => .unexpectedEnd
  | unexpectedCharacter _ => .invalidExpression
  | unclosed _ => .missingClosingParenthesis
  | uncalled _ => .missingOpeningParenthesis
  | malformedNumber => .invalidNumber
  | divisionByZero => .divisionByZero
  | moduloByZero => .moduloByZero
  | domain .. => .domainError
  | unknownFunction .. => .unknownFunction
  | undefinedPower .. => .invalidPower
  | overflow => .numericOverflow
  | nestingTooDeep => .nestingTooDeep

/-- What a fault is, in a few words. -/
def message : Fault → String
  | unexpectedEnd => "Unexpected end of expression"
  | unexpectedCharacter _ => "Invalid expression"
  | unclosed false => "Missing closing parenthesis"
  | unclosed true => "Missing closing parenthesis after function argument"
  | uncalled _ => "Missing opening parenthesis after function"
  | malformedNumber => "Invalid number format"
  | divisionByZero => "Division by zero"
  | moduloByZero => "Modulo by zero"
  | domain reason _ _ => reason
  | unknownFunction name _ => "Unknown function: " ++ name
  | undefinedPower .. => "Power result is undefined"
  | overflow => "Numeric overflow"
  | nestingTooDeep => "Expression is nested too deeply"

/-- A sentence about a fault. -/
def help? : Fault → Option String
  | unexpectedEnd =>
    some "The expression ended where a number, '(' or function call was expected."
  | unexpectedCharacter found =>
    found.map fun c => "Unexpected character '" ++ String.singleton c ++ "'."
  | uncalled name =>
    some ("Function '" ++ name ++ "' must be called as " ++ name ++ "(argument).")
  | malformedNumber =>
    some "A decimal point must be preceded or followed by at least one digit."
  | domain _ name argument => some (name ++ "() is not defined for " ++ argument.text ++ ".")
  | undefinedPower base exponent =>
    some (base.text ++ " raised to " ++ exponent.text ++ " has no real value.")
  | _ => none

/-- What to do about a fault. -/
def suggestions : Fault → List String
  | unexpectedEnd => ["Check for a trailing operator", "Ensure all operators have operands"]
  | unclosed _ => ["Add a closing parenthesis ')'"]
  | unknownFunction _ known =>
    if known.isEmpty then [] else ["Supported functions: " ++ String.intercalate ", " known]
  | nestingTooDeep => ["Remove redundant parentheses or repeated unary minus signs"]
  | _ => []

end Fault

end Calculator
