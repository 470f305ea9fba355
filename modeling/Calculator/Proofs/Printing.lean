import Calculator.CommandLine.Program
import Calculator.Proofs.Results

/-!
# What runs print

The runs that evaluate texts print the values of those texts that have one, in order, and
end with a status that says whether all of them had one. This file says so for the runs
that others are made of: a list of texts (`evaluateAll`), the lines of a file
(`evaluateFile`), a session (`converse`) and what is piped in (`evaluatePiped`).

Two things are followed through the binds of a run. Its result is that of a bind of
results (`Run.result_bind`), in which printing values succeeds unless there is a value and
no way to write it (`printing`). What it prints on the standard output is what its parts
print (`Run.printed_bind`).
-/

namespace Calculator

namespace Evaluator

variable (v : Evaluator)

/-- The values of the texts that have one. -/
def values (texts : List String) : List Binary64 :=
  texts.filterMap fun text => (v.evaluate text).toOption

/-- The status of evaluating texts: `0` if all of them have a value. -/
def status (texts : List String) : Nat :=
  if texts.all fun text => (v.evaluate text).isOk then 0 else 1

variable {v} {text : String} {x : Binary64} {f : Failure}

theorem values_cons_of_ok (h : v.evaluate text = .ok x) (texts : List String) :
    v.values (text :: texts) = x :: v.values texts := by
  rw [values, List.filterMap_cons, h]
  rfl

theorem values_cons_of_error (h : v.evaluate text = .error f) (texts : List String) :
    v.values (text :: texts) = v.values texts := by
  rw [values, List.filterMap_cons, h]
  rfl

theorem status_cons_of_ok (h : v.evaluate text = .ok x) (texts : List String) :
    v.status (text :: texts) = v.status texts := by
  rw [status, List.all_cons, h]
  rfl

theorem status_cons_of_error (h : v.evaluate text = .error f) (texts : List String) :
    v.status (text :: texts) = 1 := by
  rw [status, List.all_cons, h]
  rfl

variable (v)

theorem values_append (texts texts' : List String) :
    v.values (texts ++ texts') = v.values texts ++ v.values texts' := List.filterMap_append ..

theorem values_cons (text : String) (texts : List String) :
    v.values (text :: texts) = v.values [text] ++ v.values texts := v.values_append [text] texts

theorem status_le_one (texts : List String) : v.status texts ≤ 1 := by
  rw [status]
  split <;> decide

/-- The status of several texts is the larger of those of the first and of the others. -/
theorem status_cons (text : String) (texts : List String) :
    v.status (text :: texts) = max (v.status [text]) (v.status texts) := by
  cases h : v.evaluate text with
  | ok x =>
    rw [status_cons_of_ok h, status_cons_of_ok h]
    exact (Nat.zero_max _).symm
  | error f =>
    rw [status_cons_of_error h, status_cons_of_error h]
    exact (Nat.max_eq_left (v.status_le_one texts)).symm

/-- Another source changes no value. -/
theorem toOption_evaluate_source (source text : String) :
    ({ v with source }.evaluate text).toOption = (v.evaluate text).toOption := by
  rw [evaluate_source]
  cases v.evaluate text <;> rfl

theorem values_source (source : String) (texts : List String) :
    { v with source }.values texts = v.values texts :=
  congrArg (texts.filterMap ·) (funext (v.toOption_evaluate_source source))

theorem status_source (source : String) (texts : List String) :
    { v with source }.status texts = v.status texts := by
  have hok (text : String) : ({ v with source }.evaluate text).isOk = (v.evaluate text).isOk := by
    rw [evaluate_source]
    cases v.evaluate text <;> rfl
  rw [status, status, funext hok]

end Evaluator

namespace CommandLine

/-! ## Results and output of binds -/

namespace Run

variable {α β : Type}

theorem result_pure (a : α) : (pure a : Run α).result = pure a := rfl

/-- The result of a bind is the bind of the results. -/
theorem result_bind (r : Run α) (f : α → Run β) :
    (r >>= f).result = r.result >>= fun a => (f a).result := by
  cases h : r.result with
  | ok a =>
    rw [bind_of_ok h]
    rfl
  | error e =>
    rw [bind_of_error h]
    rfl

/-- A run that goes on with its own result is done. -/
theorem bind_pure (r : Run α) : r >>= pure = r := by
  obtain ⟨events, result⟩ := r
  cases result with
  | ok a => exact congrArg (Run.mk · (.ok a)) (List.append_nil events)
  | error e => rfl

/-- What a run prints on the standard output. -/
def printed (r : Run α) : String := String.join (r.events.map Event.toOut)

/-- Without an escape, what a bind prints is printed by its parts. -/
theorem printed_bind {r : Run α} {a : α} (h : r.result = .ok a) (f : α → Run β) :
    (r >>= f).printed = r.printed ++ (f a).printed := by
  rw [bind_of_ok h, printed, List.map_append, String.join_append]
  rfl

theorem printed_print (text : String) : (print text).printed = text := String.empty_append

/-- Records are not printed on the standard output. -/
theorem printed_debug (messages : List String) : (debug messages).printed = "" := by
  rw [printed, debug, List.map_map]
  induction messages with
  | nil => rfl
  | cons message messages ih => rw [List.map_cons, String.join_cons, ih]; rfl

end Run

/-! ## Values -/

/-- Whether values can be written with a precision. -/
def writable (precision : Int) : Except Escape Unit :=
  match significantDigits precision with
  | .ok _ => .ok ()
  | .error e => .error (.precision e)

/-- What comes of printing values: if they cannot be written, the first ends the run. -/
def printing (precision : Int) (xs : List Binary64) : Except Escape Unit :=
  if xs.isEmpty then .ok () else writable precision

/-- A value as it is printed, with a number of digits. -/
def resultLine (digits : Nat) (x : Binary64) : String := x.formatDigits digits ++ "\n"

variable {precision : Int} {digits : Nat}

theorem printing_cons (x : Binary64) (xs : List Binary64) :
    printing precision (x :: xs) = writable precision >>= fun _ => printing precision xs := by
  show writable precision = _
  rw [printing]
  cases h : writable precision with
  | ok u => exact (ite_self _).symm
  | error e => rfl

theorem printing_append (xs ys : List Binary64) :
    printing precision (xs ++ ys) = printing precision xs >>= fun _ => printing precision ys := by
  induction xs with
  | nil => rfl
  | cons x xs ih => rw [List.cons_append, printing_cons, printing_cons, ih, bind_assoc]

/-- There is no way to write a value exactly if the precision is refused. -/
theorem printing_eq_error_iff {xs : List Binary64} {e : Escape} :
    printing precision xs = .error e ↔
      ∃ refusal, significantDigits precision = .error refusal ∧ e = .precision refusal ∧ xs ≠ [] := by
  rw [printing, writable]
  cases xs with
  | nil => simp
  | cons x xs =>
    cases significantDigits precision with
    | ok n => simp
    | error refusal => simp [eq_comm]

theorem printing_of_digits (h : significantDigits precision = .ok digits) (xs : List Binary64) :
    printing precision xs = .ok () := by
  rw [printing, writable, h]
  exact ite_self _

theorem result_printValue (x : Binary64) :
    (printValue precision x).result = writable precision := by
  rw [printValue, Binary64.format, writable]
  cases significantDigits precision <;> rfl

theorem printValue_of_digits (h : significantDigits precision = .ok digits) (x : Binary64) :
    printValue precision x = Run.print (resultLine digits x) := by
  rw [printValue, Binary64.format, h]
  rfl

theorem result_printAll (xs : List Binary64) :
    (printAll precision xs).result = printing precision xs := by
  induction xs with
  | nil => rfl
  | cons x xs ih => rw [printAll, Run.result_bind, result_printValue, ih, printing_cons]

theorem printed_printAll (h : significantDigits precision = .ok digits) (xs : List Binary64) :
    (printAll precision xs).printed = String.join (xs.map (resultLine digits)) := by
  induction xs with
  | nil => rfl
  | cons x xs ih =>
    rw [printAll, printValue_of_digits h, Run.printed_bind rfl, Run.printed_print, ih,
      List.map_cons, String.join_cons]

/-! ## Lists of texts -/

variable (v : Evaluator)

/-- What is seen of evaluating a text, if its value is written with a number of digits. -/
def textEvents (digits : Nat) (text : String) : List Event :=
  (Evaluator.records text (v.evaluate text)).map (.record .debug .evaluation) ++
    [match v.evaluate text with
      | .ok x => .out (resultLine digits x)
      | .error f => .err f.render]

theorem result_evaluateOne (text : String) :
    (evaluateOne v precision text).result = do
      printing precision (v.values [text])
      return v.status [text] := by
  rw [evaluateOne, Run.result_bind]
  cases h : v.evaluate text with
  | ok x =>
    rw [Evaluator.values_cons_of_ok h, Evaluator.status_cons_of_ok h, printing_cons]
    show (printValue precision x >>= fun _ => pure 0 : Run Nat).result = _
    rw [Run.result_bind, result_printValue, bind_assoc]
    rfl
  | error f =>
    rw [Evaluator.values_cons_of_error h, Evaluator.status_cons_of_error h]
    rfl

/-- Texts are evaluated to the last, unless there is a value that cannot be written. -/
theorem result_evaluateAll (texts : List String) :
    (evaluateAll v precision texts).result = do
      printing precision (v.values texts)
      return v.status texts := by
  induction texts with
  | nil => rfl
  | cons text texts ih =>
    rw [evaluateAll, v.values_cons text texts, printing_append, v.status_cons text texts]
    simp only [Run.result_bind, result_evaluateOne, ih, Run.result_pure, bind_assoc, pure_bind]

theorem evaluateOne_of_digits (h : significantDigits precision = .ok digits) (text : String) :
    evaluateOne v precision text = ⟨textEvents v digits text, .ok (v.status [text])⟩ := by
  rw [evaluateOne, textEvents]
  cases hv : v.evaluate text with
  | ok x =>
    rw [Evaluator.status_cons_of_ok hv, Run.bind_of_ok rfl]
    dsimp only
    rw [printValue_of_digits h]
    rfl
  | error f =>
    rw [Evaluator.status_cons_of_error hv]
    rfl

/-- With digits to write values in, every text is answered. -/
theorem evaluateAll_of_digits (h : significantDigits precision = .ok digits)
    (texts : List String) :
    evaluateAll v precision texts =
      ⟨texts.flatMap (textEvents v digits), .ok (v.status texts)⟩ := by
  induction texts with
  | nil => rfl
  | cons text texts ih =>
    rw [evaluateAll, evaluateOne_of_digits v h, ih, v.status_cons text texts, List.flatMap_cons]
    show Run.mk (textEvents v digits text ++ (texts.flatMap (textEvents v digits) ++ [])) _ = _
    rw [List.append_nil]
    rfl

theorem join_textEvents (text : String) :
    String.join ((textEvents v digits text).map Event.toOut) =
      String.join ((v.values [text]).map (resultLine digits)) := by
  rw [textEvents, List.map_append, String.join_append]
  have hrecords := Run.printed_debug (Evaluator.records text (v.evaluate text))
  rw [Run.printed, Run.debug] at hrecords
  rw [hrecords, String.empty_append]
  cases h : v.evaluate text with
  | ok x =>
    rw [Evaluator.values_cons_of_ok h]
    rfl
  | error f =>
    rw [Evaluator.values_cons_of_error h]
    rfl

/-- What is printed of texts is their values. -/
theorem printed_evaluateAll (h : significantDigits precision = .ok digits) (texts : List String) :
    (evaluateAll v precision texts).printed =
      String.join ((v.values texts).map (resultLine digits)) := by
  rw [evaluateAll_of_digits v h, Run.printed]
  induction texts with
  | nil => rfl
  | cons text texts ih =>
    rw [List.flatMap_cons, List.map_append, String.join_append, v.values_cons text texts,
      List.map_append, String.join_append, join_textEvents, ← ih]

/-! ## Files -/

/-- The texts of a file's entries are the expressions among its lines. -/
theorem texts_entries (contents : String) :
    (Batch.entries contents).map (·.text) = Batch.expressions (Text.fileLines contents) := by
  have hlines : ((Text.fileLines contents).zipIdx 1).map Prod.fst = Text.fileLines contents :=
    List.zipIdx_map_fst ..
  -- Which lines are expressions does not depend on their numbers.
  calc
    _ = Batch.expressions (((Text.fileLines contents).zipIdx 1).map Prod.fst) := by
      rw [Batch.entries, Batch.expressions, List.filter_map, List.map_map, List.map_map,
        List.filter_map]
      rfl
    _ = Batch.expressions (Text.fileLines contents) := by rw [hlines]

/-- The entries of a file have answers if all of them have a value, and then the answers are
    these values. -/
theorem answers_attempts (path : String) (entries : List Batch.Entry) :
    (v.status (entries.map (·.text)) = 0 ∧ ∃ answers,
        Batch.answers (Batch.attempts v path entries) = .ok answers ∧
          answers.map (·.value) = v.values (entries.map (·.text))) ∨
      (v.status (entries.map (·.text)) = 1 ∧ ∃ f,
        Batch.answers (Batch.attempts v path entries) = .error f) := by
  induction entries with
  | nil => exact .inl ⟨rfl, [], rfl, rfl⟩
  | cons e entries ih =>
    -- The name of the line goes into a failure only.
    have hsource := v.evaluate_source e.text (Batch.sourceOf path e)
    rw [List.map_cons, Batch.attempts]
    cases h : v.evaluate e.text with
    | ok x =>
      rw [h] at hsource
      rw [Evaluator.status_cons_of_ok h, Evaluator.values_cons_of_ok h, hsource]
      refine ih.imp (fun ⟨hstatus, answers, hanswers, hvalues⟩ => ⟨hstatus, ⟨e, x⟩ :: answers, ?_, ?_⟩)
        fun ⟨hstatus, f, hf⟩ => ⟨hstatus, f, ?_⟩
      · exact congrArg (Except.map _) hanswers
      · exact congrArg (x :: ·) hvalues
      · exact congrArg (Except.map _) hf
    | error f =>
      rw [h] at hsource
      rw [Evaluator.status_cons_of_error h, hsource]
      exact .inr ⟨rfl, _, rfl⟩

/-- The values that a file gives: those of its expressions, if all of them have one. -/
def fileValues (contents : String) : List Binary64 :=
  let texts := Batch.expressions (Text.fileLines contents)
  if v.status texts = 0 then v.values texts else []

variable {files : Files} {path contents : String}

theorem attemptFile_of_text (h : readText files path = .ok contents) :
    attemptFile v files path = .ok (Batch.attempts v path (Batch.entries contents)) := by
  rw [attemptFile, h]
  rfl

/-- The status of a file says whether all its expressions have a value. -/
theorem result_evaluateFile (h : readText files path = .ok contents) :
    (evaluateFile v files precision path).result = do
      printing precision (fileValues v contents)
      return v.status (Batch.expressions (Text.fileLines contents)) := by
  have hanswers := answers_attempts v path (Batch.entries contents)
  rw [texts_entries] at hanswers
  rw [evaluateFile, attemptFile_of_text v h]
  dsimp only
  rw [Run.result_bind, fileValues]
  rcases hanswers with ⟨hstatus, answers, hok, hvalues⟩ | ⟨hstatus, f, hfailed⟩
  · rw [hok, hstatus]
    show (printAll precision (answers.map (·.value)) >>= fun _ => pure 0 : Run Nat).result = _
    rw [Run.result_bind, result_printAll, hvalues]
    rfl
  · rw [hfailed, hstatus]
    rfl

/-- What is printed of a file is all its values, or nothing. -/
theorem printed_evaluateFile (hdigits : significantDigits precision = .ok digits)
    (h : readText files path = .ok contents) :
    (evaluateFile v files precision path).printed =
      String.join ((fileValues v contents).map (resultLine digits)) := by
  have hanswers := answers_attempts v path (Batch.entries contents)
  rw [texts_entries] at hanswers
  rw [evaluateFile, attemptFile_of_text v h]
  dsimp only
  rw [Run.printed_bind rfl, Run.printed_debug, String.empty_append, fileValues]
  rcases hanswers with ⟨hstatus, answers, hok, hvalues⟩ | ⟨hstatus, f, hfailed⟩
  · rw [hok, hstatus]
    dsimp only
    rw [Run.printed_bind ((result_printAll _).trans (printing_of_digits hdigits _)),
      printed_printAll hdigits, hvalues]
    exact String.append_empty
  · rw [hfailed, hstatus]
    rfl

/-! ## One file -/

/-- The command line that names a file only. -/
theorem read_oneFile : Request.read ["--file", "f.txt"] = .ok { file := some "f.txt" } :=
  eq_ok_of_toOption_eq_some (by decide +kernel)

/-- A directory with one file in it. -/
def oneFile (bytes : ByteArray) : Files := Directory.read ⟨[("f.txt", bytes)]⟩

/-- The text of the file, if it is the only one there. -/
theorem readText_oneFile (bytes : ByteArray) :
    readText (oneFile bytes) "f.txt" =
      (String.fromUTF8? bytes).elim (.error .undecodable) .ok := by
  have hread : oneFile bytes "f.txt" = .ok bytes := rfl
  rw [readText, if_neg (by decide), hread]
  dsimp only
  cases String.fromUTF8? bytes <;> rfl

/-! ## Standard input -/

/-- The texts that a session evaluates: the lines before the one that ends it, without the
    blank ones. -/
def sessionTexts : List Attempt → List String
  | [] => []
  | .interrupt :: _ => []
  | .line line :: rest =>
    let text := Text.strip line
    if text = "" then sessionTexts rest
    else if isQuit text then []
    else text :: sessionTexts rest

/-- The texts of an input that are evaluated. Unless it is a terminal, there are none if it
    is interrupted. -/
def Input.texts (i : Input) : List String :=
  if i.isTerminal then sessionTexts i.attempts
  else ((readLines i.attempts).map Batch.expressions).getD []

theorem result_answerLine {line : String} (htext : Text.strip line ≠ "")
    (hquit : isQuit (Text.strip line) = false) :
    (answerLine v precision line).result = do
      printing precision (v.values [Text.strip line])
      return true := by
  rw [answerLine]
  simp only [htext, hquit, if_false, Bool.false_eq_true]
  rw [Run.result_bind, result_evaluateOne, bind_assoc]
  rfl

theorem result_converseFrom_line (line : String) (attempts : List Attempt) :
    (converseFrom v precision (.line line :: attempts)).result = do
      if ← (answerLine v precision line).result then (converseFrom v precision attempts).result
      else return 0 := by
  rw [converseFrom, Run.result_bind]
  show (answerLine v precision line >>= _ : Run Nat).result = _
  rw [Run.result_bind]
  refine bind_congr fun goesOn => ?_
  cases goesOn <;> rfl

/-- Whatever its lines are, a session ends with the status `0` or is interrupted, unless
    there is a value that cannot be written. -/
theorem result_converseFrom (attempts : List Attempt) :
    ∃ status, (status = 0 ∨ status = interrupted) ∧
      (converseFrom v precision attempts).result = do
        printing precision (v.values (sessionTexts attempts))
        return status := by
  induction attempts with
  | nil => exact ⟨0, .inl rfl, rfl⟩
  | cons attempt attempts ih =>
    cases attempt with
    | interrupt => exact ⟨interrupted, .inr rfl, rfl⟩
    | line line =>
      -- Only a line that ends the session has a status of its own.
      obtain ⟨status, hstatus, hresult⟩ := ih
      rw [result_converseFrom_line, sessionTexts]
      by_cases htext : Text.strip line = ""
      · refine ⟨status, hstatus, ?_⟩
        rw [answerLine, if_pos htext, if_pos htext]
        exact hresult
      rw [if_neg htext]
      by_cases hquit : isQuit (Text.strip line) = true
      · refine ⟨0, .inl rfl, ?_⟩
        rw [answerLine, if_neg htext, if_pos hquit, if_pos hquit]
        rfl
      · refine ⟨status, hstatus, ?_⟩
        rw [if_neg hquit, result_answerLine v htext (Bool.eq_false_iff.2 hquit),
          v.values_cons (Text.strip line) (sessionTexts attempts), printing_append, bind_assoc,
          bind_assoc, hresult]
        rfl

theorem result_evaluatePiped (attempts : List Attempt) :
    ∃ status, (status ≤ 1 ∨ status = interrupted) ∧
      (evaluatePiped v precision attempts).result = do
        printing precision (v.values (((readLines attempts).map Batch.expressions).getD []))
        return status := by
  rw [evaluatePiped]
  cases readLines attempts with
  | none => exact ⟨interrupted, .inr rfl, rfl⟩
  | some lines => exact ⟨_, .inl (v.status_le_one _), result_evaluateAll v _⟩

end CommandLine

end Calculator
