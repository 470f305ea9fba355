import Calculator.CommandLine.Run

/-!
# Standard input

The standard input is read line by line, and an attempt to read may be
interrupted by the user. What it holds is the list of what the attempts give;
attempts after the last line find the end of the input.

If it is a terminal, lines are evaluated as they come, in a session with prompts
(`converse`). Otherwise all lines are read first, and then evaluated as a batch
(`evaluatePiped`), so an interrupt leaves nothing evaluated.
-/

namespace Calculator.CommandLine

/-- What an attempt to read a line gives. -/
inductive Attempt
  | line (text : String)
  | interrupt
  deriving DecidableEq, Repr

/-- The standard input. -/
structure Input where
  isTerminal : Bool
  attempts : List Attempt

namespace Input

/-- The input that holds a text. -/
def ofText (isTerminal : Bool) (text : String) : Input where
  isTerminal := isTerminal
  attempts := (Text.streamLines text).map .line

/-- The same input, if the attempt to read after the first `n` is interrupted. If
    the text has fewer lines than `n`, nobody makes that attempt. -/
def interruptAfter (n : Nat) (i : Input) : Input :=
  if n ≤ i.attempts.length then { i with attempts := i.attempts.take n ++ [.interrupt] } else i

end Input

/-- The version of the program. -/
def version : String := "0.1.0"

/-- What a session starts with. -/
def banner : String := "exprcalc " ++ version ++ " - type 'quit' to exit\n"

/-- What stands in front of every line of a session. -/
def prompt : String := "> "

/-- The status after an interrupt. -/
def interrupted : Nat := 130

/-- Whether a line ends a session, in letters of either case. -/
def isQuit (line : String) : Bool :=
  let word := line.toList.map Char.toLower
  word == "quit".toList || word == "exit".toList

/-- The answer to one line of a session, and whether the session goes on. -/
def answerLine (v : Evaluator) (precision : Int) (line : String) : Run Bool :=
  let text := Text.strip line
  if text = "" then return true
  else if isQuit text then return false
  else do
    let _ ← evaluateOne v precision text
    return true

/-- The lines of a session after the banner. -/
def converseFrom (v : Evaluator) (precision : Int) : List Attempt → Run Nat
  | [] => do
    Run.print prompt
    Run.print "\n"
    return 0
  | .interrupt :: _ => do
    Run.print prompt
    Run.print "\n"
    return interrupted
  | .line line :: rest => do
    Run.print prompt
    if ← answerLine v precision line then converseFrom v precision rest else return 0

/-- A session. -/
def converse (v : Evaluator) (precision : Int) (attempts : List Attempt) : Run Nat := do
  Run.print banner
  converseFrom v precision attempts

/-- The lines that are read, unless there is an interrupt. -/
def readLines : List Attempt → Option (List String)
  | [] => some []
  | .interrupt :: _ => none
  | .line line :: rest => (readLines rest).map (line :: ·)

/-- Evaluates the lines of an input that is no terminal. -/
def evaluatePiped (v : Evaluator) (precision : Int) (attempts : List Attempt) : Run Nat :=
  match readLines attempts with
  | some lines => evaluateAll v precision (Batch.expressions lines)
  | none => do
    Run.print "\n"
    return interrupted

end Calculator.CommandLine
