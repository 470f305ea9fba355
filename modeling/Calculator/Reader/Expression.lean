import Calculator.Function
import Calculator.Operator
import Calculator.Reader.Basic

/-!
# Reading expressions

The grammar, from what binds least to what binds most:

* an *expression* is terms joined by `+` and `-`, grouped to the left;
* a *term* is factors joined by `*`, `/` and `%`, grouped to the left;
* a *factor* is a `-` and a factor, or a primary, or a primary, `^` or `**`, and
  a factor: the power binds more than the minus in front of it, and groups to
  the right;
* a *primary* is a number, an expression in parentheses, or a call;
* a *call* is a name and an expression in parentheses;
* a *number* is digits, with or without a point and further digits, or a point
  and digits.

Blanks may stand between tokens; `**` is one token. A value is computed as soon
as its operands are read, so of several faults the first to be met counts.

Each of the five readers that call each other takes the number of frames it may
use, one for itself and the rest for those it calls. Without a frame left, the
nesting is too deep. Reading the next operand of a chain takes no more frames
than reading the first, so chains may be of any length.
-/

namespace Calculator.Reader

/-- The readers' fault when no frame is left. -/
def tooDeep {α : Type} : Reader α := fail .nestingTooDeep

/-- A number: the longest run of digits with at most one point in it. Its value
    is the nearest to it, unless that is infinite. -/
def number : Reader Binary64 := do
  let start ← position
  let whole ← takeWhile Char.isDigit
  let fraction ← if ← skip '.' then takeWhile Char.isDigit else pure []
  if whole.isEmpty && fraction.isEmpty then failAt start .malformedNumber
  else valueAt start (checkFinite ((Decimal.ofNumeral whole fraction).toBinary64 false))

/-- Moves past the sign of a power, `^` or `**`, and says whether there was one. -/
def powerSign : Reader Bool := do
  if ← skip '^' then return true
  else if (← peek 0) == some '*' && (← peek 1) == some '*' then
    advance 2
    return true
  else return false

/-- Goes on with a chain whose value is `value` so far, while operators of the
    given table follow. There are at most as many of them as there are characters
    in `left`. -/
def chainFrom (operator? : Char → Option Operator) (operand : Reader Binary64) :
    (left : List Char) → (value : Binary64) → Reader Binary64
  | [], value => return value
  | _ :: left, value => do
    skipBlanks
    match (← peek 0).bind operator? with
    | none => return value
    | some operator =>
      let start ← position
      advance 1
      let next ← operand
      let value ← valueAt start (operator.apply value next)
      chainFrom operator? operand left value

/-- Operands joined by the operators of a table, grouped to the left. -/
def chain (operator? : Char → Option Operator) (operand : Reader Binary64) :
    Reader Binary64 := do
  let first ← operand
  chainFrom operator? operand (← get).rest first

variable (m : Elementary)

mutual

/-- Terms joined by `+` and `-`. -/
def expression : (frames : Nat) → Reader Binary64
  | 0 => tooDeep
  | frames + 1 => chain Operator.additive? (term frames)
  termination_by structural frames => frames

/-- Factors joined by `*`, `/` and `%`. -/
def term : (frames : Nat) → Reader Binary64
  | 0 => tooDeep
  | frames + 1 => chain Operator.multiplicative? (factor frames)
  termination_by structural frames => frames

/-- A negated factor, or a primary with or without an exponent. -/
def factor : (frames : Nat) → Reader Binary64
  | 0 => tooDeep
  | frames + 1 => do
    skipBlanks
    if ← atEnd then fail .unexpectedEnd
    else if ← skip '-' then return -(← factor frames)
    else
      let base ← primary frames
      skipBlanks
      let start ← position
      if ← powerSign then
        let exponent ← factor frames
        valueAt start (power m base exponent)
      else return base
  termination_by structural frames => frames

/-- A number, an expression in parentheses, or a call. -/
def primary : (frames : Nat) → Reader Binary64
  | 0 => tooDeep
  | frames + 1 => do
    match ← peek 0 with
    | none => unexpected
    | some c =>
      if c = '(' then
        advance 1
        let value ← expression frames
        expect ')' (.unclosed false)
        return value
      else if c.isAlpha then call frames
      else if c.isDigit || c = '.' then number
      else unexpected
  termination_by structural frames => frames

/-- A name and its argument in parentheses. The name is looked up when the
    argument has a value. -/
def call : (frames : Nat) → Reader Binary64
  | 0 => tooDeep
  | frames + 1 => do
    let start ← position
    let name := String.ofList (← takeWhile Char.isAlphanum)
    expect '(' (.uncalled name)
    let argument ← expression frames
    expect ')' (.unclosed true)
    valueAt start (applyNamed m name argument)
  termination_by structural frames => frames

end

/-- A whole text: an expression, and nothing but blanks after it. -/
def whole (frames : Nat) : Reader Binary64 := do
  let value ← expression m frames
  skipBlanks
  if ← atEnd then return value else unexpected

end Calculator.Reader
