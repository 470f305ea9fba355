import Calculator.Batch
import Calculator.Decimal.Layout

/-!
# Runs

What a run does to the outside is a list of *events* in order: texts for the two
output streams, and records. Which records are shown is decided at the end, when
the events are written down (`Run.transcript`): records for debugging only on
request, records of errors always. They share the error stream with the reports.

A run ends with a result, or escapes, if it meets what nobody provided for.
-/

namespace Calculator.CommandLine

/-- How important a record is. -/
inductive Level
  | debug
  | error
  deriving DecidableEq, Repr

/-- Who keeps records. -/
inductive Logger
  | evaluation
  | commandLine
  deriving DecidableEq, Repr

/-- The name of a level. -/
def Level.name : Level → String
  | debug => "DEBUG"
  | error => "ERROR"

/-- The name under which records are kept. -/
def Logger.name : Logger → String
  | evaluation => "exprcalc.evaluator.evaluator"
  | commandLine => "exprcalc.cli"

/-- Something that is seen from outside. -/
inductive Event
  /-- Text on the standard output. -/
  | out (text : String)
  /-- Text on the standard error. -/
  | err (text : String)
  | record (level : Level) (logger : Logger) (message : String)
  deriving DecidableEq, Repr

namespace Event

/-- What an event adds to the standard output. -/
def toOut : Event → String
  | out text => text
  | _ => ""

/-- What an event adds to the standard error. -/
def toErr (verbose : Bool) : Event → String
  | out _ => ""
  | err text => text
  | record level logger message =>
    if verbose || level = .error then level.name ++ " " ++ logger.name ++ ": " ++ message ++ "\n"
    else ""

end Event

/-- What ends a run early and is not provided for. -/
inductive Escape
  /-- A file that is no text. -/
  | undecodable
  /-- A path with the character that ends paths. -/
  | embeddedNull
  /-- A result cannot be printed with so many digits. -/
  | precision (e : PrecisionError)
  /-- There is no precision to compare. -/
  | noPrecision
  deriving DecidableEq, Repr

/-- The events of a run, and its result. -/
structure Run (α : Type) where
  events : List Event
  result : Except Escape α

namespace Run

variable {α β : Type}

/-- Goes on with the result of a run, unless it has escaped. -/
def bind (r : Run α) (f : α → Run β) : Run β :=
  match r.result with
  | .error e => ⟨r.events, .error e⟩
  | .ok a =>
    let s := f a
    ⟨r.events ++ s.events, s.result⟩

instance : Monad Run where
  pure a := ⟨[], .ok a⟩
  bind := bind

/-- The run of one event. -/
def emit (e : Event) : Run Unit := ⟨[e], .ok ()⟩

/-- Prints on the standard output. -/
def print (text : String) : Run Unit := emit (.out text)

/-- Prints on the standard error. -/
def report (text : String) : Run Unit := emit (.err text)

/-- Records messages of the evaluation for debugging. -/
def debug (messages : List String) : Run Unit :=
  ⟨messages.map (.record .debug .evaluation), .ok ()⟩

/-- Ends early. -/
def escape (e : Escape) : Run α := ⟨[], .error e⟩

/-- After a result, the events of what follows are added. -/
theorem bind_of_ok {r : Run α} {a : α} (h : r.result = .ok a) (f : α → Run β) :
    r >>= f = ⟨r.events ++ (f a).events, (f a).result⟩ := by
  show bind r f = _
  rw [bind, h]

/-- After an escape, nothing follows. -/
theorem bind_of_error {r : Run α} {e : Escape} (h : r.result = .error e) (f : α → Run β) :
    r >>= f = ⟨r.events, .error e⟩ := by
  show bind r f = _
  rw [bind, h]

/-- What is done first and what is done next can be grouped either way. -/
theorem bind_assoc {γ : Type} (r : Run α) (f : α → Run β) (g : β → Run γ) :
    r >>= f >>= g = r >>= fun a => f a >>= g := by
  cases h : r.result with
  | error e => rw [bind_of_error h, bind_of_error h, bind_of_error rfl]
  | ok a =>
    rw [bind_of_ok h, bind_of_ok h]
    cases hf : (f a).result with
    | error e => rw [bind_of_error rfl, bind_of_error hf]
    | ok b => rw [bind_of_ok rfl, bind_of_ok hf, List.append_assoc]

end Run

/-- What is left of a run when it is over. -/
structure Transcript where
  stdout : String
  stderr : String
  /-- The exit status, if the run has not escaped. -/
  ending : Except Escape Nat

/-- A run written down, with or without the records for debugging. -/
def Run.transcript (verbose : Bool) (r : Run Nat) : Transcript where
  stdout := String.join (r.events.map Event.toOut)
  stderr := String.join (r.events.map (Event.toErr verbose))
  ending := r.result

/-! ## Evaluating -/

/-- Prints a value on a line of its own. -/
def printValue (precision : Int) (x : Binary64) : Run Unit :=
  match x.format precision with
  | .ok s => Run.print (s ++ "\n")
  | .error e => Run.escape (.precision e)

/-- Evaluates a text, and prints its value or reports its failure. The status is
    `1` for a failure. -/
def evaluateOne (v : Evaluator) (precision : Int) (text : String) : Run Nat := do
  let outcome := v.evaluate text
  Run.debug (Evaluator.records text outcome)
  match outcome with
  | .ok x =>
    printValue precision x
    return 0
  | .error f =>
    Run.report f.render
    return 1

/-- Evaluates texts one after the other. The status is `1` if one fails. -/
def evaluateAll (v : Evaluator) (precision : Int) : List String → Run Nat
  | [] => return 0
  | text :: texts => do
    let status ← evaluateOne v precision text
    let rest ← evaluateAll v precision texts
    return max status rest

/-- Prints values in order. -/
def printAll (precision : Int) : List Binary64 → Run Unit
  | [] => return ()
  | x :: xs => do
    printValue precision x
    printAll precision xs

/-- Evaluates a file, and prints its values only if none of its lines fails. The
    status is `1` for a failure, and `2` if there is no file to read. -/
def evaluateFile (v : Evaluator) (files : Files) (precision : Int) (path : String) : Run Nat :=
  match attemptFile v files path with
  | .error (.inaccessible e) => do
    Run.emit (.record .error .commandLine ("Cannot read " ++ path ++ ": " ++ e.message path))
    return 2
  | .error .embeddedNull => Run.escape .embeddedNull
  | .error .undecodable => Run.escape .undecodable
  | .ok attempts => do
    Run.debug (Batch.records path attempts)
    match Batch.answers attempts with
    | .error f =>
      Run.report f.render
      return 1
    | .ok answers =>
      printAll precision (answers.map (·.value))
      return 0

end Calculator.CommandLine
