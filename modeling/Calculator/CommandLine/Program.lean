import Calculator.CommandLine.Input
import Calculator.CommandLine.Request

/-!
# The program

The whole program is a function from its surroundings, the files and the
standard input, and its command line to a transcript. A request is served from
the file if there is one, and then from the expressions of the command line; only
if it names neither, from the standard input.
-/

namespace Calculator.CommandLine

/-- What surrounds a run. -/
structure Surroundings where
  files : Files
  input : Input

/-- How the program is called. -/
def usage : String :=
  "usage: exprcalc [-h] [--file PATH] [--precision PRECISION] [--verbose]\n" ++
  "                [--version]\n" ++
  "                [EXPR ...]\n"

/-- What the program says about itself. -/
def help : String :=
  usage ++
  "\nEvaluate arithmetic expressions\n" ++
  "\npositional arguments:\n" ++
  "  EXPR                  Expressions to evaluate\n" ++
  "\noptions:\n" ++
  "  -h, --help            show this help message and exit\n" ++
  "  --file PATH, -f PATH  Evaluate one expression per line from PATH\n" ++
  "  --precision PRECISION, -p PRECISION\n" ++
  "                        Significant digits in printed results (default: 15)\n" ++
  "  --verbose, -v         Enable debug logging\n" ++
  "  --version             show program's version number and exit\n" ++
  "\nExamples:\n" ++
  "    exprcalc \"2 + 3 * 4\"                 # 14\n" ++
  "    exprcalc \"2^3^2\" \"sqrt(16)\"          # 512 and 4\n" ++
  "    exprcalc --file expressions.txt      # One expression per line\n" ++
  "    echo \"ln(1)\" | exprcalc              # Read from stdin\n" ++
  "        \n"

/-- What is done if nothing is to be evaluated. -/
def Stop.run : Stop → Run Nat
  | help => do
    Run.print CommandLine.help
    return 0
  | version => do
    Run.print ("exprcalc " ++ CommandLine.version ++ "\n")
    return 0
  | usage e => do
    Run.report (CommandLine.usage ++ "exprcalc: error: " ++ e.message ++ "\n")
    return 2
  | noPrecision => Run.escape .noPrecision

/-- An evaluator for texts from a source. -/
def evaluatorFor (m : Elementary) (source : String) : Evaluator where
  machine := m
  source := source

/-- Serves a request. -/
def Request.run (m : Elementary) (s : Surroundings) (r : Request) : Run Nat :=
  let ofCommandLine := evaluateAll (evaluatorFor m "<argv>") r.precision r.expressions
  match r.file with
  | some path => do
    let status ← evaluateFile (evaluatorFor m path) s.files r.precision path
    if status ≠ 0 || r.expressions.isEmpty then return status else ofCommandLine
  | none =>
    if !r.expressions.isEmpty then ofCommandLine
    else
      let v := evaluatorFor m "<stdin>"
      if s.input.isTerminal then converse v r.precision s.input.attempts
      else evaluatePiped v r.precision s.input.attempts

/-- The program. -/
def program (m : Elementary) (s : Surroundings) (argv : List String) : Transcript :=
  match Request.read argv with
  | .error stop => stop.run.transcript false
  | .ok request => (request.run m s).transcript request.verbose

end Calculator.CommandLine
