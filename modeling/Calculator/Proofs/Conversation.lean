import Calculator.Proofs.Reporting
import Calculator.Proofs.Writing

/-!
# Conversations

A session at a terminal is a loop over lines: a prompt, a line, and an answer, which is a
value on the standard output or a report on the standard error. A line may also be blank,
which has no answer, or end the session. What a session leaves is the banner and then what
each line leaves (`transcript_converse`), up to the first that ends it; the lines after that
are not even read (`converse_append_quit`). A line that fails is reported, and the session
goes on as if it began with the next line (`conversation_of_error`).

Without prompts and banner, it is what is left of the same lines piped in, unless one of them
ends the session or is a comment, which a session does not know.
-/

namespace Calculator.CommandLine

variable {precision : Int} {digits : Nat} (v : Evaluator)

/-! ## Lines -/

/-- Whether a line ends the session. -/
def endsSession (line : String) : Bool := isQuit (Text.strip line)

/-- The texts to evaluate on a line: the one between its blanks, unless this is empty or ends
    the session. -/
def lineTexts (line : String) : List String :=
  if Text.strip line = "" || endsSession line then [] else [Text.strip line]

/-- The outcome of a line, if there is something to evaluate. -/
def lineOutcome (line : String) : Option (Except Failure Binary64) :=
  if Text.strip line = "" || endsSession line then none else some (v.evaluate (Text.strip line))

/-- What is printed in answer to a line: its value, if it has one. -/
def lineAnswer (digits : Nat) (line : String) : String :=
  match lineOutcome v line with
  | some (.ok x) => resultLine digits x
  | _ => ""

/-- What is reported on a line: its failure, if it fails. -/
def lineReport (line : String) : String :=
  match lineOutcome v line with
  | some (.error f) => f.render
  | _ => ""

/-- The lines that are read: all of them up to the first that ends the session. -/
def linesRead : List String → List String
  | [] => []
  | line :: lines => line :: if endsSession line then [] else linesRead lines

/-- A line is answered by evaluating its texts. -/
theorem answerLine_eq (line : String) :
    answerLine v precision line =
      evaluateAll v precision (lineTexts line) >>= fun _ => pure (!endsSession line) := by
  rw [answerLine, lineTexts]
  by_cases hblank : Text.strip line = ""
  · have hquit : endsSession line = false := by
      rw [endsSession, hblank]
      decide
    rw [if_pos hblank, hquit, hblank]
    rfl
  · rw [if_neg hblank, ← endsSession]
    cases hquit : endsSession line with
    | true =>
      rw [if_pos rfl, if_pos (by simp)]
      rfl
    | false =>
      rw [if_neg (by decide), if_neg (by simp [hblank]), evaluateAll, Run.bind_assoc]
      rfl

/-- The texts of a line leave its answer or its report. -/
theorem join_lineTexts (digits : Nat) (line : String) :
    String.join ((v.values (lineTexts line)).map (resultLine digits)) = lineAnswer v digits line ∧
      String.join ((v.failures (lineTexts line)).map Failure.render) = lineReport v line := by
  rw [lineTexts, lineAnswer, lineReport, lineOutcome]
  by_cases hnothing : (Text.strip line = "" || endsSession line) = true
  · rw [if_pos hnothing, if_pos hnothing]
    exact ⟨rfl, rfl⟩
  · rw [if_neg hnothing, if_neg hnothing]
    cases h : v.evaluate (Text.strip line) with
    | ok x =>
      rw [Evaluator.values_cons_of_ok h, Evaluator.failures_singleton_of_ok h]
      exact ⟨String.empty_append, rfl⟩
    | error f =>
      rw [Evaluator.values_cons_of_error h, Evaluator.failures_singleton_of_error h]
      exact ⟨rfl, String.empty_append⟩

/-- With digits to write values in, a line is answered, and then it is known whether the
    session goes on. -/
theorem answerLine_of_digits (h : significantDigits precision = .ok digits) (line : String) :
    (answerLine v precision line).printed = lineAnswer v digits line ∧
      (answerLine v precision line).reported = lineReport v line ∧
      (answerLine v precision line).result = .ok (!endsSession line) := by
  obtain ⟨hanswer, hreport⟩ := join_lineTexts v digits line
  have hstatus : (evaluateAll v precision (lineTexts line)).result =
      .ok (v.status (lineTexts line)) := by
    rw [evaluateAll_of_digits v h]
  rw [answerLine_eq, Run.printed_bind hstatus, Run.reported_bind hstatus, Run.printed_pure,
    Run.reported_pure, String.append_empty, String.append_empty, printed_evaluateAll v h,
    reported_evaluateAll v h, hanswer, hreport, Run.bind_of_ok hstatus]
  exact ⟨rfl, rfl, rfl⟩

/-! ## Sessions line by line -/

variable (precision) in
/-- What is left of a session from a prompt on, without the records for debugging. -/
def conversation (attempts : List Attempt) : Transcript :=
  (converseFrom v precision attempts).transcript false

/-- At the end of the input, the prompt is on a line of its own. -/
theorem conversation_nil : conversation precision v [] = ⟨prompt ++ "\n", "", .ok 0⟩ := by
  have hprompt : String.join [prompt, "\n"] = prompt ++ "\n" := by decide +kernel
  exact congrArg (Transcript.mk · "" (.ok 0)) hprompt

/-- A line leaves a prompt and its answer or its report, and then the session goes on, unless
    the line ends it. -/
theorem conversation_line (h : significantDigits precision = .ok digits) (line : String)
    (attempts : List Attempt) :
    conversation precision v (.line line :: attempts) =
      let rest := if endsSession line then ⟨"", "", .ok 0⟩ else conversation precision v attempts
      ⟨prompt ++ (lineAnswer v digits line ++ rest.stdout), lineReport v line ++ rest.stderr,
        rest.ending⟩ := by
  obtain ⟨hanswer, hreport, hresult⟩ := answerLine_of_digits v h line
  rw [conversation, converseFrom, Run.transcript_bind rfl, Run.printed_print, Run.reported_print,
    String.empty_append, Run.transcript_bind hresult, hanswer, hreport]
  cases endsSession line <;> rfl

/-- A session that is never ended by a line ends with the input, after a last prompt. -/
def farewell (lines : List String) : String :=
  if lines.any endsSession then "" else prompt ++ "\n"

/-- A session leaves what each of the lines leaves that are read. -/
theorem conversation_lines (h : significantDigits precision = .ok digits) (lines : List String) :
    conversation precision v (lines.map .line) =
      ⟨String.join ((linesRead lines).map fun line => prompt ++ lineAnswer v digits line) ++
          farewell lines,
        String.join ((linesRead lines).map (lineReport v)), .ok 0⟩ := by
  induction lines with
  | nil =>
    refine (conversation_nil v).trans ?_
    exact congrArg (Transcript.mk · "" (.ok 0)) String.empty_append.symm
  | cons line lines ih =>
    rw [List.map_cons, conversation_line v h, ih, farewell, farewell, linesRead, List.any_cons,
      List.map_cons, List.map_cons, String.join_cons, String.join_cons]
    cases endsSession line with
    | true => simp
    | false => simp [String.append_assoc]

/-- Lines after one that ends the session have no part in it: no attempt is made to read them,
    so it does not matter whether one of these attempts would be interrupted. -/
theorem converse_append_quit {line : String} (h : endsSession line = true)
    (before rest rest' : List Attempt) :
    converse v precision (before ++ .line line :: rest) =
      converse v precision (before ++ .line line :: rest') := by
  have hanswer : answerLine v precision line = pure false := by
    rw [answerLine_eq, lineTexts, if_pos (by rw [h, Bool.or_true]), h]
    rfl
  have hfrom : converseFrom v precision (before ++ .line line :: rest) =
      converseFrom v precision (before ++ .line line :: rest') := by
    -- Up to the line that ends it the session is the same; an interrupt ends it before.
    induction before with
    | nil =>
      rw [List.nil_append, List.nil_append, converseFrom, converseFrom, hanswer]
      rfl
    | cons attempt before ih =>
      cases attempt with
      | interrupt => rfl
      | line line' =>
        rw [List.cons_append, List.cons_append, converseFrom, converseFrom, ih]
  rw [converse, converse, hfrom]

/-- A line that fails leaves a prompt and the report, and then the session goes on as if it
    began with the next line. -/
theorem conversation_of_error (h : significantDigits precision = .ok digits) {line : String}
    {f : Failure} (hfails : lineOutcome v line = some (.error f)) (rest : List Attempt) :
    conversation precision v (.line line :: rest) =
      { conversation precision v rest with
        stdout := prompt ++ (conversation precision v rest).stdout
        stderr := f.render ++ (conversation precision v rest).stderr } := by
  have hgoes : endsSession line = false := by
    cases hends : endsSession line with
    | false => rfl
    | true =>
      rw [lineOutcome, if_pos (by rw [hends, Bool.or_true])] at hfails
      exact absurd hfails nofun
  rw [conversation_line v h, lineAnswer, lineReport, hfails, hgoes]
  dsimp only
  rw [if_neg (by decide), String.empty_append]

/-! ## Sessions and piped lines -/

/-- Without lines that end the session and without comments, the texts of lines are the
    expressions among them. -/
theorem flatMap_lineTexts {lines : List String}
    (h : ∀ line ∈ lines, endsSession line = false ∧ (Text.strip line).toList.head? ≠ some '#') :
    lines.flatMap lineTexts = Batch.expressions lines := by
  induction lines with
  | nil => rfl
  | cons line lines ih =>
    obtain ⟨⟨hgoes, hcomment⟩, hlines⟩ := List.forall_mem_cons.1 h
    have hexpressions : Batch.expressions (line :: lines) =
        [Text.strip line].filter Batch.isExpression ++ Batch.expressions lines :=
      List.filter_append [Text.strip line] _
    rw [List.flatMap_cons, ih hlines, hexpressions, lineTexts, hgoes, Bool.or_false]
    by_cases hblank : Text.strip line = ""
    · rw [hblank]
      rfl
    · have hexpression : Batch.isExpression (Text.strip line) = true :=
        eq_true_of_ne_false fun hnone =>
          ((Batch.isExpression_eq_false_iff _).1 hnone).elim hblank hcomment
      rw [if_neg (by simpa using hblank), List.filter_cons_of_pos hexpression, List.filter_nil]

/-- The texts of lines leave the answers and the reports of the lines. -/
theorem join_flatMap_lineTexts (digits : Nat) (lines : List String) :
    String.join ((v.values (lines.flatMap lineTexts)).map (resultLine digits)) =
        String.join (lines.map (lineAnswer v digits)) ∧
      String.join ((v.failures (lines.flatMap lineTexts)).map Failure.render) =
        String.join (lines.map (lineReport v)) := by
  induction lines with
  | nil => exact ⟨rfl, rfl⟩
  | cons line lines ih =>
    obtain ⟨hanswer, hreport⟩ := join_lineTexts v digits line
    rw [List.flatMap_cons, v.values_append, v.failures_append, List.map_append, List.map_append,
      String.join_append, String.join_append, ih.1, ih.2, hanswer, hreport, List.map_cons,
      List.map_cons, String.join_cons, String.join_cons]
    exact ⟨rfl, rfl⟩

/-- Piped lines leave their answers and reports, if none of them is a comment or would end a
    session. -/
theorem evaluatePiped_lines (h : significantDigits precision = .ok digits) {lines : List String}
    (hlines : ∀ line ∈ lines,
      endsSession line = false ∧ (Text.strip line).toList.head? ≠ some '#') :
    let t := (evaluatePiped v precision (lines.map .line)).transcript false
    t.stdout = String.join (lines.map (lineAnswer v digits)) ∧
      t.stderr = String.join (lines.map (lineReport v)) := by
  rw [evaluatePiped, readLines_map_line]
  dsimp only
  rw [transcript_evaluateAll v h, ← flatMap_lineTexts hlines]
  exact join_flatMap_lineTexts v digits lines

/-- Without lines that end the session, all lines are read. -/
theorem linesRead_eq_self {lines : List String} (h : ∀ line ∈ lines, endsSession line = false) :
    linesRead lines = lines := by
  induction lines with
  | nil => rfl
  | cons line lines ih =>
    obtain ⟨hline, hlines⟩ := List.forall_mem_cons.1 h
    rw [linesRead, hline, if_neg (by decide), ih hlines]

attribute [local instance (2000)] instPowNat

/-- A session leaves the banner, and then for each line that is read a prompt and what is left
    of the line: its value on the standard output or its failure on the standard error, or
    neither. It ends with a line that ends it, after which nothing is read; or with the input,
    after a last prompt. A line that fails has no part in what is left of later ones. Without
    lines that end the session and comments, the same lines piped in leave the same, but for
    the banner and the prompts. -/
theorem transcript_converse (hpos : 1 ≤ precision) (hlt : precision < 2 ^ (31 : Nat)) (text : String) :
    let lines := Text.streamLines text
    let t := (converse v precision (Input.ofText true text).attempts).transcript false
    let answer := lineAnswer v precision.toNat
    (t.ending = .ok 0 ∧
      t.stdout = banner ++ (String.join ((linesRead lines).map fun line => prompt ++ answer line) ++
        if lines.any endsSession then "" else prompt ++ "\n") ∧
      t.stderr = String.join ((linesRead lines).map (lineReport v))) ∧
    (∀ (before rest rest' : List Attempt) (line : String), endsSession line = true →
      converse v precision (before ++ .line line :: rest) =
        converse v precision (before ++ .line line :: rest')) ∧
    (∀ (line : String) (f : Failure) (rest : List Attempt), lineOutcome v line = some (.error f) →
      conversation precision v (.line line :: rest) =
        { conversation precision v rest with
          stdout := prompt ++ (conversation precision v rest).stdout
          stderr := f.render ++ (conversation precision v rest).stderr }) ∧
    ((∀ line ∈ lines, endsSession line = false ∧ (Text.strip line).toList.head? ≠ some '#') →
      let piped := (evaluatePiped v precision (Input.ofText false text).attempts).transcript false
      t.stdout = banner ++ (String.join (lines.map fun line => prompt ++ answer line) ++
          (prompt ++ "\n")) ∧
        piped.stdout = String.join (lines.map answer) ∧ piped.stderr = t.stderr) := by
  have hdigits := significantDigits_of_pos hpos hlt
  intro lines t answer
  have ht : t = ⟨banner ++ (String.join ((linesRead lines).map fun line => prompt ++ answer line) ++
      farewell lines), String.join ((linesRead lines).map (lineReport v)), .ok 0⟩ := by
    have hattempts : (Input.ofText true text).attempts = lines.map .line := rfl
    refine (Run.transcript_bind rfl _).trans ?_
    rw [← conversation, Run.printed_print, Run.reported_print, String.empty_append, hattempts,
      conversation_lines v hdigits lines]
  refine ⟨by rw [ht]; exact ⟨rfl, rfl, rfl⟩, fun before rest rest' line h =>
    converse_append_quit v h before rest rest', fun line f rest hfails =>
    conversation_of_error v hdigits hfails rest, fun hlines => ?_⟩
  have hgoes : ∀ line ∈ lines, endsSession line = false := fun line hline => (hlines line hline).1
  have hany : lines.any endsSession = false :=
    List.any_eq_false.2 fun line hline => Bool.eq_false_iff.1 (hgoes line hline)
  obtain ⟨hstdout, hstderr⟩ := evaluatePiped_lines v hdigits hlines
  refine ⟨?_, hstdout, ?_⟩
  · rw [ht, linesRead_eq_self hgoes, farewell, hany]
    rfl
  · rw [ht, linesRead_eq_self hgoes]
    exact hstderr

/-- A value, a blank line, a failure and the end of the session, with a line that is not read. -/
theorem transcript_converse_fiveLines :
    let v := evaluatorFor .plain "<stdin>"
    (1 : Int) ≤ 3 ∧ (3 : Int) < 2 ^ (31 : Nat) ∧
      ((converse v 3 (Input.ofText true "1/3\n\n2 +\r\n Quit\n4").attempts).transcript
        false).stdout = "exprcalc 0.1.0 - type 'quit' to exit\n> 0.333\n> > > " := by
  intro v
  refine ⟨by decide, by decide, ?_⟩
  refine (transcript_converse v (by decide) (by decide) "1/3\n\n2 +\r\n Quit\n4").1.2.1.trans ?_
  decide +kernel

end Calculator.CommandLine
