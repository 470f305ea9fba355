import Calculator.Reader.Expression

/-!
# Steps

A reader can be worked by hand: each `Step` asks for one piece of the grammar,
looks at the text, moves the cursor, or computes with given operands, and is
answered. The next step goes on where the cursor is, also after a failure.
-/

namespace Calculator.Reader

/-- One thing to do at a cursor. -/
inductive Step
  /-- Read a whole text to its end. -/
  | whole
  | expression
  | term
  | factor
  | primary
  | call
  | number
  | powerSign
  | skipBlanks
  | atEnd
  | peek (ahead : Nat)
  | advance (count : Nat)
  | power (base exponent : Binary64) (position : Int)
  | modulo (dividend divisor : Binary64) (position : Int)
  | checkFinite (value : Binary64) (position : Int)
  deriving DecidableEq, Repr

/-- What a step gives. -/
inductive Answer
  | value (x : Binary64)
  | truth (b : Bool)
  /-- A character, or `none` past the end. -/
  | character (c : Option Char)
  | done
  deriving DecidableEq, Repr

/-- The reader that a step is. -/
def Step.reader (m : Elementary) (frames : Nat) : Step → Reader Answer
  | whole => return .value (← Reader.whole m frames)
  | expression => return .value (← Reader.expression m frames)
  | term => return .value (← Reader.term m frames)
  | factor => return .value (← Reader.factor m frames)
  | primary => return .value (← Reader.primary m frames)
  | call => return .value (← Reader.call m frames)
  | number => return .value (← Reader.number)
  | powerSign => return .truth (← Reader.powerSign)
  | skipBlanks => do Reader.skipBlanks; return .done
  | atEnd => return .truth (← Reader.atEnd)
  | peek ahead => return .character (← Reader.peek ahead)
  | advance count => do Reader.advance count; return .done
  | power base exponent position =>
    return .value (← valueAt position (Calculator.power m base exponent))
  | modulo dividend divisor position =>
    return .value (← valueAt position (Calculator.modulo dividend divisor))
  | checkFinite value position => do
    let _ ← valueAt position (Calculator.checkFinite value)
    return .done

/-- The answer of a step or its failure, and the cursor after it. -/
def Step.perform (m : Elementary) (frames : Nat) (s : Step) (c : Cursor) :
    Except Located Answer × Cursor :=
  match (s.reader m frames).run c with
  | .ok a c' => (.ok a, c')
  | .error e c' => (.error e, c')

/-- The answers of steps that follow each other, each with the cursor after
    it. -/
def performAll (m : Elementary) (frames : Nat) :
    List Step → Cursor → List (Except Located Answer × Cursor)
  | [], _ => []
  | s :: ss, c =>
    let r := s.perform m frames c
    r :: performAll m frames ss r.2

end Calculator.Reader
