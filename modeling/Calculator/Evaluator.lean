import Calculator.Diagnostic
import Calculator.Reader.Expression
import Calculator.Text.Quoted

/-!
# Evaluation

An `Evaluator` evaluates whole texts. It has a machine for the elementary
functions, a number of frames for nested expressions, and a source, which is
only used to say where a failure comes from.

What an evaluation did can be recorded in words (`Evaluator.records`): the text
when it starts, and the value or the fault when it ends. Texts are quoted there,
so a record is always one line.
-/

namespace Calculator

/-- What evaluates texts. -/
structure Evaluator where
  machine : Elementary
  /-- The number of frames for nested expressions. -/
  frames : Nat := 1000
  /-- Where the texts come from. -/
  source : String := "<expression>"

namespace Evaluator

/-- The failure of a text, for a fault in it. -/
def failure (v : Evaluator) (text : String) (e : Located) : Failure where
  fault := e.fault
  text := text
  position := e.position
  source := v.source

/-- The value of a text, or why and where there is none. -/
def evaluate (v : Evaluator) (text : String) : Except Failure Binary64 :=
  match (Reader.whole v.machine v.frames).run (Cursor.start text) with
  | .ok x _ => .ok x
  | .error e _ => .error (v.failure text e)

/-- What is recorded about an evaluation, in order. -/
def records (text : String) (outcome : Except Failure Binary64) : List String :=
  let quoted := Text.quoted text
  ["Evaluating " ++ quoted,
    match outcome with
    | .ok x => "Evaluated " ++ quoted ++ " = " ++ x.text
    | .error f => "Evaluation of " ++ quoted ++ " failed: [" ++ f.code ++ "] " ++ f.message]

/-- A failure names the text and the source of its evaluation. -/
theorem text_and_source_of_evaluate {v : Evaluator} {text : String} {f : Failure}
    (h : v.evaluate text = .error f) : f.text = text ∧ f.source = v.source := by
  unfold evaluate at h
  split at h
  · simp at h
  · cases h
    exact ⟨rfl, rfl⟩

/-- The source does not change an outcome, but for its own name in failures. -/
theorem evaluate_source (v : Evaluator) (text source : String) :
    { v with source }.evaluate text = (v.evaluate text).mapError (·.withSource source) := by
  unfold evaluate
  dsimp only
  split <;> rfl

end Evaluator

end Calculator
