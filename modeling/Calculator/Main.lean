import Calculator.CommandLine.Program

/-!
# The executable

The program on a real machine. Everything is decided by `program`; here the file
and the standard input that it asks for are fetched, and its transcript is
written. Only a session at a terminal is worked line by line, so that each
answer is seen before the next line is typed.
-/

namespace Calculator.CommandLine

/-- The bytes of a file of the system. -/
def readSystemFile (path : String) : IO (Except ReadError ByteArray) := do
  try
    return .ok (← IO.FS.readBinFile path)
  catch
    -- A path through a file is refused with its name, and a directory only when
    -- its handle is read.
    | .inappropriateType (some _) .. => return .error .notDirectory
    | .inappropriateType none .. => return .error .isDirectory
    | .permissionDenied .. => return .error .permissionDenied
    | .invalidArgument .. => return .error .nameTooLong
    | _ => return .error .notFound

/-- What is said about a run that has escaped. -/
def Escape.message : Escape → String
  | undecodable => "the file is not a text in UTF-8"
  | embeddedNull => "embedded null byte"
  | precision e => e.message
  | noPrecision => "no precision"

/-- Writes a transcript, and gives the status to exit with. -/
def Transcript.write (t : Transcript) : IO UInt32 := do
  (← IO.getStdout).putStr t.stdout
  (← IO.getStdout).flush
  (← IO.getStderr).putStr t.stderr
  match t.ending with
  | .ok status => return status.toUInt32
  | .error e =>
    (← IO.getStderr).putStrLn e.message
    return 1

/-- A session at the terminal, from a prompt on. -/
partial def converseAtTerminal (v : Evaluator) (r : Request) : IO UInt32 := do
  let stdout ← IO.getStdout
  stdout.putStr prompt
  stdout.flush
  let line ← (← IO.getStdin).getLine
  if line.isEmpty then
    stdout.putStrLn ""
    return 0
  let answer := answerLine v r.precision line
  let status ← (Run.transcript r.verbose ⟨answer.events, answer.result.map fun _ => 0⟩).write
  match answer.result with
  | .ok true => converseAtTerminal v r
  | _ => return status

/-- All that can still be read from a stream. -/
partial def readRest (s : IO.FS.Stream) (text : String) : IO String := do
  let line ← s.getLine
  if line.isEmpty then return text else readRest s (text ++ line)

/-- The executable's work for a command line. -/
def serve (m : Elementary) (argv : List String) : IO UInt32 := do
  let nothing : Surroundings := ⟨fun _ => .error .notFound, Input.ofText false ""⟩
  match Request.read argv with
  | .error _ => (program m nothing argv).write
  | .ok r =>
    match r.file with
    | some path =>
      let bytes ← readSystemFile path
      (program m { nothing with files := fun _ => bytes } argv).write
    | none =>
      if !r.expressions.isEmpty then (program m nothing argv).write
      else
        let stdin ← IO.getStdin
        if ← stdin.isTty then
          (← IO.getStdout).putStr banner
          converseAtTerminal (evaluatorFor m "<stdin>") r
        else
          let text ← readRest stdin ""
          (program m { nothing with input := Input.ofText false text } argv).write

end Calculator.CommandLine

/-- The calculator's command line. -/
def main (argv : List String) : IO UInt32 :=
  Calculator.CommandLine.serve Calculator.Elementary.machine argv
