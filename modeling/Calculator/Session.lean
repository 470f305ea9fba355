import Calculator.Evaluator

/-!
# Sessions

In a session one evaluator is used many times. Its source may be changed in
between, and the last failure is kept, so that it can be reported again for
another source. Nothing else is kept from one evaluation to the next.
-/

namespace Calculator

/-- The state of a session. -/
structure Session where
  evaluator : Evaluator
  /-- The last failure, as it was last reported. -/
  last : Option Failure := none

namespace Session

/-- What can be done in a session. -/
inductive Action
  | evaluate (text : String)
  /-- Change the source of the evaluator. -/
  | setSource (source : String)
  /-- Report the last failure for another source. -/
  | relabel (source : String)
  deriving DecidableEq, Repr

/-- What an action gives. -/
inductive Answer
  | evaluated (outcome : Except Failure Binary64)
  | source (name : String)
  /-- The last failure, if there is one. -/
  | relabelled (failure : Option Failure)

/-- The answer to an action, and the session after it. -/
def act (s : Session) : Action → Answer × Session
  | .evaluate text =>
    match s.evaluator.evaluate text with
    | .ok x => (.evaluated (.ok x), s)
    | .error f => (.evaluated (.error f), { s with last := some f })
  | .setSource source => (.source source, { s with evaluator := { s.evaluator with source } })
  | .relabel source =>
    let last := s.last.map (·.withSource source)
    (.relabelled last, { s with last })

/-- The answers to actions that follow each other. -/
def run (s : Session) : List Action → List Answer
  | [] => []
  | a :: as =>
    let (answer, s') := s.act a
    answer :: s'.run as

/-- An evaluation in a session is answered as the evaluator answers it. -/
theorem fst_act_evaluate (s : Session) (text : String) :
    (s.act (.evaluate text)).1 = .evaluated (s.evaluator.evaluate text) := by
  unfold act
  dsimp only
  split <;> rename_i h <;> rw [h]

end Session

end Calculator
