import Calculator.Proofs.Answers

/-!
# What runs report

Beside the values that runs print, there are the failures that they report on the standard
error. With both, all that is left of a run is known: the transcript of evaluating texts
(`transcript_evaluateAll`), of evaluating a file that has a failure
(`transcript_evaluateFile_of_failure`), and of one that has none
(`transcript_evaluateFile_of_answers`).

The transcript of a list of texts is made of those of its parts, one after the other
(`Transcript.ofTexts_append`). So no text has an influence on what is left of another.
-/

namespace Calculator

namespace Failure

/-- The report on a failure, with a source put into its second line, where the source
    stands. -/
def reportFrom (f : Failure) (source : String) : String :=
  let place := "  --> " ++ source ++ ", column " ++ toString f.diagnostic.column
  String.join ((f.diagnostic.lines.set 1 place).map (· ++ "\n"))

/-- A report for another source differs in the second line only. -/
theorem render_withSource (f : Failure) (source : String) :
    (f.withSource source).render = f.reportFrom source := rfl

end Failure

namespace Evaluator

variable (v : Evaluator)

/-- Why a text has no value. -/
def failure? (text : String) : Option Failure :=
  match v.evaluate text with
  | .ok _ => none
  | .error f => some f

/-- The failures of the texts that have no value. -/
def failures (texts : List String) : List Failure := texts.filterMap v.failure?

variable {v} {text : String} {x : Binary64} {f : Failure}

theorem failure?_of_ok (h : v.evaluate text = .ok x) : v.failure? text = none := by
  rw [failure?, h]

theorem failure?_of_error (h : v.evaluate text = .error f) : v.failure? text = some f := by
  rw [failure?, h]

theorem failure?_eq_some_iff : v.failure? text = some f ↔ v.evaluate text = .error f := by
  rw [failure?]
  cases v.evaluate text <;> simp

theorem failures_singleton_of_ok (h : v.evaluate text = .ok x) : v.failures [text] = [] := by
  rw [failures, List.filterMap_cons, failure?_of_ok h]
  rfl

theorem failures_singleton_of_error (h : v.evaluate text = .error f) :
    v.failures [text] = [f] := by
  rw [failures, List.filterMap_cons, failure?_of_error h]
  rfl

variable (v)

theorem failures_append (texts texts' : List String) :
    v.failures (texts ++ texts') = v.failures texts ++ v.failures texts' :=
  List.filterMap_append ..

/-- Another source only gives its own name to the failure of a text. -/
theorem failure?_source (source text : String) :
    { v with source }.failure? text = (v.failure? text).map (·.withSource source) := by
  rw [failure?, failure?, evaluate_source]
  cases v.evaluate text <;> rfl

/-- Another source only gives its own name to failures. -/
theorem failures_source (source : String) (texts : List String) :
    { v with source }.failures texts = (v.failures texts).map (·.withSource source) := by
  rw [failures, failures, List.map_filterMap, funext (v.failure?_source source)]

theorem status_append (texts texts' : List String) :
    v.status (texts ++ texts') = max (v.status texts) (v.status texts') := by
  induction texts with
  | nil => exact (Nat.zero_max _).symm
  | cons text texts ih =>
    rw [List.cons_append, v.status_cons text (texts ++ texts'), ih, v.status_cons text texts,
      Nat.max_assoc]

end Evaluator

namespace CommandLine

/-! ## Reports of binds -/

namespace Run

variable {α β : Type}

/-- What a run reports on the standard error, without the records for debugging. -/
def reported (r : Run α) : String := String.join (r.events.map (Event.toErr false))

theorem transcript_eq (r : Run Nat) : r.transcript false = ⟨r.printed, r.reported, r.result⟩ := rfl

/-- Without an escape, what a bind reports is reported by its parts. -/
theorem reported_bind {r : Run α} {a : α} (h : r.result = .ok a) (f : α → Run β) :
    (r >>= f).reported = r.reported ++ (f a).reported := by
  rw [bind_of_ok h, reported, List.map_append, String.join_append]
  rfl

theorem printed_pure (a : α) : (pure a : Run α).printed = "" := rfl

theorem reported_pure (a : α) : (pure a : Run α).reported = "" := rfl

theorem reported_print (text : String) : (print text).reported = "" := rfl

/-- Records for debugging are not reported. -/
theorem reported_debug (messages : List String) : (debug messages).reported = "" := by
  rw [reported, debug, List.map_map]
  induction messages with
  | nil => rfl
  | cons message messages ih => rw [List.map_cons, String.join_cons, ih]; rfl

/-- What is left of a bind is what its first part writes, and then what is left of the
    second. -/
theorem transcript_bind {r : Run α} {a : α} (h : r.result = .ok a) (f : α → Run Nat) :
    (r >>= f).transcript false =
      { (f a).transcript false with
        stdout := r.printed ++ ((f a).transcript false).stdout
        stderr := r.reported ++ ((f a).transcript false).stderr } := by
  rw [transcript_eq, printed_bind h, reported_bind h, bind_of_ok h]
  rfl

/-- Records for debugging leave nothing. -/
theorem transcript_debug_bind (messages : List String) (f : Unit → Run Nat) :
    (debug messages >>= f).transcript false = (f ()).transcript false := by
  rw [transcript_bind rfl, printed_debug, reported_debug, String.empty_append, String.empty_append]

end Run

/-! ## Transcripts of texts -/

namespace Transcript

/-- What is left of two runs, one after the other: the larger status counts. -/
def followedBy (t t' : Transcript) : Transcript where
  stdout := t.stdout ++ t'.stdout
  stderr := t.stderr ++ t'.stderr
  ending := do return max (← t.ending) (← t'.ending)

/-- What is left of evaluating texts: their values, written with a number of digits, the
    reports on their failures, and their status. -/
def ofTexts (v : Evaluator) (digits : Nat) (texts : List String) : Transcript where
  stdout := String.join ((v.values texts).map (resultLine digits))
  stderr := String.join ((v.failures texts).map Failure.render)
  ending := .ok (v.status texts)

variable (v : Evaluator) (digits : Nat)

/-- Evaluating texts and then others leaves what each of the two leaves. -/
theorem ofTexts_append (texts texts' : List String) :
    ofTexts v digits (texts ++ texts') =
      (ofTexts v digits texts).followedBy (ofTexts v digits texts') := by
  rw [ofTexts, v.values_append, v.failures_append, v.status_append, List.map_append,
    List.map_append, String.join_append, String.join_append]
  rfl

end Transcript

variable {precision : Int} {digits : Nat} (v : Evaluator)

theorem reported_printAll (h : significantDigits precision = .ok digits) (xs : List Binary64) :
    (printAll precision xs).reported = "" := by
  induction xs with
  | nil => rfl
  | cons x xs ih => rw [printAll, printValue_of_digits h, Run.reported_bind rfl, ih]; rfl

/-- Of the events of a text, only the report on its failure is seen on the standard error. -/
theorem join_textEvents_toErr (text : String) :
    String.join ((textEvents v digits text).map (Event.toErr false)) =
      String.join ((v.failures [text]).map Failure.render) := by
  rw [textEvents, List.map_append, String.join_append]
  -- The records come first; what is left after them is a value or a failure.
  have hrecords := Run.reported_debug (Evaluator.records text (v.evaluate text))
  rw [Run.reported, Run.debug] at hrecords
  rw [hrecords, String.empty_append]
  cases h : v.evaluate text with
  | ok x =>
    rw [Evaluator.failures_singleton_of_ok h]
    rfl
  | error f =>
    rw [Evaluator.failures_singleton_of_error h]
    rfl

/-- What is reported of texts is their failures. -/
theorem reported_evaluateAll (h : significantDigits precision = .ok digits)
    (texts : List String) :
    (evaluateAll v precision texts).reported =
      String.join ((v.failures texts).map Failure.render) := by
  rw [evaluateAll_of_digits v h, Run.reported]
  induction texts with
  | nil => rfl
  | cons text texts ih =>
    rw [List.flatMap_cons, List.map_append, String.join_append, ← List.singleton_append,
      v.failures_append, List.map_append, String.join_append, join_textEvents_toErr, ← ih]

/-- With digits to write values in, texts leave their values and the reports on their
    failures. -/
theorem transcript_evaluateAll (h : significantDigits precision = .ok digits)
    (texts : List String) :
    (evaluateAll v precision texts).transcript false = .ofTexts v digits texts := by
  rw [Run.transcript_eq, printed_evaluateAll v h, reported_evaluateAll v h,
    evaluateAll_of_digits v h]
  rfl

/-! ## Transcripts of files -/

/-- A file with a failure leaves nothing but the report on it. -/
theorem transcript_evaluateFile_of_failure {files : Files} {path contents : String} {f : Failure}
    (hread : readText files path = .ok contents)
    (h : Batch.evaluate v path contents = .error f) :
    (evaluateFile v files precision path).transcript false = ⟨"", f.render, .ok 1⟩ := by
  rw [evaluateFile, attemptFile_of_text v hread]
  dsimp only
  rw [← Batch.evaluate, h, Run.transcript_debug_bind]
  exact congrArg (Transcript.mk "" · (.ok 1)) String.empty_append

/-- A file without failures leaves its values. -/
theorem transcript_evaluateFile_of_answers {files : Files} {path contents : String}
    {answers : List Batch.Answer} (hdigits : significantDigits precision = .ok digits)
    (hread : readText files path = .ok contents)
    (h : Batch.evaluate v path contents = .ok answers) :
    (evaluateFile v files precision path).transcript false =
      ⟨String.join (answers.map fun a => resultLine digits a.value), "", .ok 0⟩ := by
  have hprinted : (printAll precision (answers.map (·.value))).result = .ok () :=
    (result_printAll _).trans (printing_of_digits hdigits _)
  rw [evaluateFile, attemptFile_of_text v hread]
  dsimp only
  rw [← Batch.evaluate, h, Run.transcript_debug_bind]
  dsimp only
  rw [Run.transcript_eq, Run.printed_bind hprinted, Run.reported_bind hprinted,
    Run.bind_of_ok hprinted, printed_printAll hdigits, reported_printAll hdigits, List.map_map]
  exact congrArg (Transcript.mk · "" (.ok 0)) String.append_empty

end CommandLine

end Calculator
