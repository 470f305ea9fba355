import Mathlib.Data.List.Induction
import Calculator.Proofs.Reporting
import Calculator.Session

/-!
# Evaluators have no memory

In a session one evaluator answers many requests, and still every answer is one that could be
had from an evaluator made for the request: an evaluation is answered as by a new evaluator
with the source that was set last, and the last failure, reported for another source, is what
a new evaluator with that source says of the last text that failed
(`run_eq_fresh`). So neither failures nor earlier sources leave a trace.

Of a failure the source is only a label. A caller gets a failure by one of two ways: it is
handed on as it is, if it has the caller's source already, and otherwise copied for it
(`Failure.handedTo`). It does not show which way it took.
-/

namespace Calculator

namespace Failure

/-- The failures differ in their sources at most. -/
structure SameReport (f g : Failure) : Prop where
  kind : f.kind = g.kind
  code : f.code = g.code
  message : f.message = g.message
  text : f.text = g.text
  position : f.position = g.position
  help : f.fault.help? = g.fault.help?
  suggestions : f.fault.suggestions = g.fault.suggestions

theorem sameReport_withSource (f : Failure) (source : String) :
    (f.withSource source).SameReport f :=
  ⟨rfl, rfl, rfl, rfl, rfl, rfl, rfl⟩

/-- A failure as a caller with a source gets it: as it is if it has that source, and otherwise
    as a copy for the source. -/
def handedTo (source : String) (f : Failure) : Failure :=
  if f.source = source then f else f.withSource source

/-- A copy for the source that a failure has is the failure. -/
theorem handedTo_eq_withSource (source : String) (f : Failure) :
    f.handedTo source = f.withSource source := by
  rw [handedTo]
  split
  · rename_i h
    rw [← h]
    rfl
  · rfl

end Failure

namespace Evaluator

/-- The source of failures for which nobody has named one. -/
def unnamedSource : String := "<expression>"

/-- An evaluator makes the failures of one that has no name for its source, and hands them on
    for its own. -/
theorem evaluate_eq_handedTo (v : Evaluator) (text : String) :
    v.evaluate text =
      ({ v with source := unnamedSource }.evaluate text).mapError (Failure.handedTo v.source) := by
  rw [funext (Failure.handedTo_eq_withSource v.source), ← evaluate_source]

/-- Under two sources a text has the same value, or failures with the same report but for the
    source. -/
theorem evaluate_two_sources (v : Evaluator) (text S T : String) :
    let x := { v with source := S }.evaluate text
    let y := { v with source := T }.evaluate text
    (∃ value, x = .ok value ∧ y = .ok value) ∨
      ∃ f g, x = .error f ∧ y = .error g ∧ f = g.withSource S ∧ f.source = S ∧ g.source = T ∧
        f.diagnostic.source = S ∧ g.diagnostic.source = T ∧ f.SameReport g := by
  dsimp only
  rw [v.evaluate_source text S, v.evaluate_source text T]
  cases v.evaluate text with
  | ok value => exact .inl ⟨value, rfl, rfl⟩
  | error f =>
    exact .inr ⟨f.withSource S, f.withSource T, rfl, rfl, (f.withSource_withSource T S).symm,
      rfl, rfl, rfl, rfl, (f.withSource T).sameReport_withSource S⟩

end Evaluator

namespace Session

/-- The session after actions. -/
def after (s : Session) (as : List Action) : Session := as.foldl (fun s a => (s.act a).2) s

/-- The source that an action sets. -/
def Action.newSource? : Action → Option String
  | setSource source => some source
  | _ => none

/-- The text that an action evaluates in vain. -/
def Action.failedText? (v : Evaluator) : Action → Option String
  | evaluate text => (v.failure? text).map fun _ => text
  | _ => none

/-- The source that was set last, if any was, in place of the first. -/
def currentSource (first : String) (as : List Action) : String :=
  (as.filterMap Action.newSource?).getLast?.getD first

/-- The last text that failed. -/
def lastFailed? (v : Evaluator) (as : List Action) : Option String :=
  (as.filterMap (Action.failedText? v)).getLast?

/-- The answer to an action after others, from evaluators that are made for it. -/
def freshAnswer (m : Elementary) (frames : Nat) (first : String) (before : List Action) :
    Action → Answer
  | .evaluate text =>
    .evaluated (Evaluator.evaluate ⟨m, frames, currentSource first before⟩ text)
  | .setSource source => .source source
  | .relabel source =>
    .relabelled ((lastFailed? ⟨m, frames, first⟩ before).bind fun text =>
      Evaluator.failure? ⟨m, frames, source⟩ text)

/-! ## Actions that follow each other -/

theorem after_concat (s : Session) (as : List Action) (a : Action) :
    s.after (as ++ [a]) = ((s.after as).act a).2 := by
  rw [after, List.foldl_append]
  rfl

/-- What is done after other actions is done in the session that these leave. -/
theorem getElem?_run (s : Session) (before rest : List Action) (a : Action) :
    (s.run (before ++ a :: rest))[before.length]? = some ((s.after before).act a).1 := by
  induction before generalizing s with
  | nil => rfl
  | cons b before ih => exact ih (s.act b).2

theorem currentSource_concat (first : String) (as : List Action) (a : Action) :
    currentSource first (as ++ [a]) = a.newSource?.getD (currentSource first as) := by
  rw [currentSource, currentSource, List.filterMap_append]
  cases a with
  | setSource source => exact congrArg (Option.getD · first) List.getLast?_concat
  | evaluate text | relabel source =>
    show ((as.filterMap Action.newSource?) ++ []).getLast?.getD first = _
    rw [List.append_nil]
    rfl

theorem lastFailed?_concat (v : Evaluator) (as : List Action) (a : Action) :
    lastFailed? v (as ++ [a]) = (a.failedText? v).or (lastFailed? v as) := by
  rw [lastFailed?, lastFailed?, List.filterMap_append, List.filterMap_cons, List.filterMap_nil]
  cases a.failedText? v with
  | none => simp
  | some text => simp

/-! ## Nothing else is kept -/

/-- An action changes the source of the evaluator at most. -/
theorem evaluator_act (s : Session) (a : Action) :
    (s.act a).2.evaluator =
      { s.evaluator with source := a.newSource?.getD s.evaluator.source } := by
  cases a with
  | setSource source | relabel source => rfl
  | evaluate text =>
    rw [act]
    split <;> rfl

/-- After any actions the evaluator is the same, but for the source that was set last. -/
theorem evaluator_after (s : Session) (as : List Action) :
    (s.after as).evaluator =
      { s.evaluator with source := currentSource s.evaluator.source as } := by
  induction as using List.reverseRecOn with
  | nil => rfl
  | append_singleton as a ih =>
    rw [after_concat, evaluator_act, currentSource_concat, ih]

/-- An evaluation that fails leaves its failure, and one that does not the failure before. -/
theorem last_act_evaluate (s : Session) (text : String) :
    (s.act (.evaluate text)).2.last = (s.evaluator.failure? text).or s.last := by
  rw [act, Evaluator.failure?]
  cases s.evaluator.evaluate text <;> rfl

/-- For a given source, the failure that is kept is that of the last text that failed,
    whatever sources it was reported for meanwhile. -/
theorem last_after (v : Evaluator) (as : List Action) (source : String) :
    (Session.after { evaluator := v } as).last.map (·.withSource source) =
      (lastFailed? v as).bind fun text => { v with source }.failure? text := by
  -- The last action decides, so the induction goes on from the end.
  induction as using List.reverseRecOn with
  | nil => rfl
  | append_singleton as a ih =>
    rw [after_concat, lastFailed?_concat]
    cases a with
    | setSource u => exact ih
    | relabel u =>
      -- A copy of a copy is a copy.
      refine Eq.trans ?_ ih
      show ((Session.after { evaluator := v } as).last.map (·.withSource u)).map _ = _
      rw [Option.map_map]
      rfl
    | evaluate text =>
      rw [last_act_evaluate, evaluator_after, Evaluator.failure?_source, Action.failedText?]
      cases htext : v.failure? text with
      | none => exact ih
      | some f =>
        show some ((f.withSource _).withSource source) = { v with source }.failure? text
        rw [Evaluator.failure?_source, htext]
        rfl

/-- Each answer in a session is one of evaluators made for it. The source has no part in what
    they answer but to be named in failures, which are handed on or copied for it, and of two
    sources that a failure is copied for the second counts. -/
theorem run_eq_fresh (m : Elementary) (frames : Nat) :
    (∀ (first : String) (before rest : List Action) (a : Action),
      (Session.run { evaluator := ⟨m, frames, first⟩ } (before ++ a :: rest))[before.length]? =
        some (freshAnswer m frames first before a)) ∧
    (∀ (s : Session) (before rest : List Action) (text : String),
      (s.run (before ++ .evaluate text :: rest))[before.length]? =
        some (.evaluated (Evaluator.evaluate ⟨s.evaluator.machine, s.evaluator.frames,
          currentSource s.evaluator.source before⟩ text))) ∧
    (∀ (text S T : String),
      (∃ value, Evaluator.evaluate ⟨m, frames, S⟩ text = .ok value ∧
        Evaluator.evaluate ⟨m, frames, T⟩ text = .ok value) ∨
      ∃ f g, Evaluator.evaluate ⟨m, frames, S⟩ text = .error f ∧
        Evaluator.evaluate ⟨m, frames, T⟩ text = .error g ∧
        f = g.withSource S ∧ f.source = S ∧ g.source = T ∧ f.diagnostic.source = S ∧
        g.diagnostic.source = T ∧ f.SameReport g) ∧
    (∀ (text S : String),
      Evaluator.evaluate ⟨m, frames, S⟩ text =
        (Evaluator.evaluate ⟨m, frames, Evaluator.unnamedSource⟩ text).mapError
          (Failure.handedTo S)) ∧
    ∀ (f : Failure) (a b : String), (f.withSource a).withSource b = f.withSource b := by
  refine ⟨fun first before rest a => ?_, fun s before rest text => ?_,
    fun text S T => Evaluator.evaluate_two_sources ⟨m, frames, S⟩ text S T,
    fun text S => Evaluator.evaluate_eq_handedTo ⟨m, frames, S⟩ text,
    Failure.withSource_withSource⟩
  · rw [getElem?_run]
    cases a with
    | evaluate text => rw [fst_act_evaluate, evaluator_after]; rfl
    | setSource source => rfl
    | relabel source =>
      rw [freshAnswer, ← last_after ⟨m, frames, first⟩ before source]
      rfl
  · rw [getElem?_run, fst_act_evaluate, evaluator_after]

end Session

end Calculator
