import Calculator.Proofs.Machines
import Calculator.Proofs.Printing

/-!
# Batches from files and from the standard input

A batch can be kept in a file or piped in. Both ways end with the same status and, if all
is well, print the same, provided that the text is cut into the same lines. It is not
always: a file has breaks that a stream does not have.

What a file with a text does is what is done for the text with line feeds for the breaks
of a file (`Text.withLineFeeds`), when this is piped in (`runFile_agrees`). For a text
whose breaks are line feeds and carriage returns, it can be left as it is.
-/

namespace Calculator

namespace Text

/-! ## Lines of files and of streams -/

variable {cs : List Char}

/-- A break of a stream is a break of a file. -/
theorem not_isStreamBreak {c : Char} (h : isFileBreak c = false) : isStreamBreak c = false :=
  beq_eq_false_iff_ne.2 fun hc => absurd (hc ▸ h : isFileBreak '\n' = false) (by decide)

/-- A unified text has line feeds and characters of the text, but no carriage returns. -/
theorem mem_unifyBreaks {c : Char} (h : c ∈ unifyBreaks cs) : c = '\n' ∨ c ∈ cs ∧ c ≠ '\r' := by
  fun_induction unifyBreaks cs with
  | case1 => exact absurd h List.not_mem_nil
  | case2 cs ih =>
    rcases List.mem_cons.1 h with rfl | h
    · exact .inl rfl
    · exact (ih h).imp_right fun ⟨hmem, hne⟩ => ⟨.tail _ (.tail _ hmem), hne⟩
  | case3 c' cs _ ih =>
    rcases List.mem_cons.1 h with rfl | h
    · by_cases hreturn : c' = '\r'
      · exact .inl (if_pos hreturn)
      · rw [if_neg hreturn]
        exact .inr ⟨.head _, hreturn⟩
    · exact (ih h).imp_right fun ⟨hmem, hne⟩ => ⟨.tail _ hmem, hne⟩

/-- Without carriage returns, there is nothing to unify. -/
theorem unifyBreaks_of_not_mem (h : '\r' ∉ cs) : unifyBreaks cs = cs := by
  fun_induction unifyBreaks cs with
  | case1 => rfl
  | case2 cs ih => exact absurd (.head _) h
  | case3 c cs _ ih =>
    rw [if_neg fun hc : c = '\r' => h (hc ▸ .head _), ih fun hmem => h (.tail _ hmem)]

/-- Pieces stay the same if breaks are replaced by breaks of another kind. -/
theorem pieces_map {isBreak isBreak' : Char → Bool} {f : Char → Char}
    (h : ∀ c ∈ cs, isBreak' (f c) = isBreak c ∧ (isBreak c = false → f c = c)) :
    pieces isBreak' (cs.map f) = pieces isBreak cs := by
  induction cs with
  | nil => rfl
  | cons c cs ih =>
    obtain ⟨hbreak, hsame⟩ := h c (.head _)
    rw [List.map_cons, pieces, pieces, hbreak, ih fun c' hmem => h c' (.tail _ hmem)]
    cases hc : isBreak c with
    | true => rfl
    | false => rw [hsame hc]

/-- The text with line feeds for the breaks of a file. -/
def withLineFeeds (s : String) : String :=
  String.ofList ((unifyBreaks s.toList).map fun c => if isFileBreak c then '\n' else c)

/-- With line feeds for its breaks, a text has as lines of a stream its lines of a file. -/
theorem streamLines_withLineFeeds (s : String) : streamLines (withLineFeeds s) = fileLines s := by
  have hreturn : '\r' ∉ (unifyBreaks s.toList).map fun c => if isFileBreak c then '\n' else c := by
    intro h
    obtain ⟨c, -, hc⟩ := List.mem_map.1 h
    by_cases hbreak : isFileBreak c = true
    · rw [if_pos hbreak] at hc
      exact absurd hc (by decide)
    · rw [if_neg hbreak] at hc
      exact hbreak (hc ▸ rfl)
  rw [streamLines, linesBy, withLineFeeds, String.toList_ofList, unifyBreaks_of_not_mem hreturn,
    fileLines, linesBy]
  refine congrArg _ (pieces_map fun c _ => ?_)
  by_cases hbreak : isFileBreak c = true
  · rw [if_pos hbreak, hbreak]
    exact ⟨rfl, nofun⟩
  · rw [if_neg hbreak, Bool.eq_false_iff.2 hbreak]
    exact ⟨not_isStreamBreak (Bool.eq_false_iff.2 hbreak), fun _ => rfl⟩

/-- A text has the same lines in a file as in a stream if it breaks at line feeds and carriage
    returns only. -/
theorem fileLines_eq_streamLines {s : String}
    (h : ∀ c ∈ s.toList, isFileBreak c → c = '\n' ∨ c = '\r') : fileLines s = streamLines s := by
  rw [fileLines, linesBy, streamLines, linesBy]
  have hpieces : pieces isStreamBreak ((unifyBreaks s.toList).map id) =
      pieces isFileBreak (unifyBreaks s.toList) := by
    refine pieces_map fun c hmem => ⟨?_, fun _ => rfl⟩
    cases hbreak : isFileBreak c with
    | false => exact not_isStreamBreak hbreak
    | true =>
      obtain rfl | ⟨hmem, hne⟩ := mem_unifyBreaks hmem
      · rfl
      · exact beq_iff_eq.2 ((h c hmem hbreak).resolve_right hne)
  rw [List.map_id] at hpieces
  exact congrArg _ hpieces.symm

end Text

namespace CommandLine

/-! ## Runs on a batch -/

/-- If one of two runs ends well, so does the other, and they print the same. -/
def Transcript.Agrees (t t' : Transcript) : Prop :=
  t.ending = .ok 0 ∨ t'.ending = .ok 0 →
    t.ending = .ok 0 ∧ t'.ending = .ok 0 ∧ t.stdout = t'.stdout

/-- The run on a file with a text. -/
def runFile (m : Elementary) (input : Input) (text : String) : Transcript :=
  program m ⟨oneFile text.toUTF8, input⟩ ["--file", "f.txt"]

/-- The run on a text that is piped in. -/
def runPiped (m : Elementary) (files : Files) (text : String) : Transcript :=
  program m ⟨files, .ofText false text⟩ []

/-- The text that is encoded in bytes is read from them. -/
theorem fromUTF8?_toUTF8 (text : String) : String.fromUTF8? text.toUTF8 = some text := by
  show String.fromUTF8? text.toByteArray = some text
  rw [String.fromUTF8?, dif_pos text.isValidUTF8]
  rfl

theorem readLines_map_line (lines : List String) :
    readLines (lines.map Attempt.line) = some lines := by
  induction lines with
  | nil => rfl
  | cons line lines ih =>
    rw [List.map_cons, readLines, ih]
    rfl

/-- There is a way to write values if the command line does not say otherwise. -/
theorem significantDigits_default : significantDigits 15 = .ok 15 := rfl

variable (m : Elementary) (input : Input) (files : Files) (text : String)

/-- Without expressions on the command line, a file is all there is to do. -/
theorem runFile_eq :
    runFile m input text = (evaluateFile (evaluatorFor m "f.txt")
      (oneFile text.toUTF8) 15 "f.txt").transcript false := by
  rw [runFile, program, read_oneFile]
  dsimp only
  rw [Request.run]
  simp only [List.isEmpty_nil, Bool.or_true, if_true, Run.bind_pure]

theorem runPiped_eq :
    runPiped m files text = (evaluateAll (evaluatorFor m "<stdin>") 15
      (Batch.expressions (Text.streamLines text))).transcript false := by
  show (evaluatePiped (evaluatorFor m "<stdin>") 15
    ((Text.streamLines text).map Attempt.line)).transcript false = _
  rw [evaluatePiped, readLines_map_line]

theorem readText_runFile :
    readText (oneFile text.toUTF8) "f.txt" = .ok text := by
  rw [readText_oneFile, fromUTF8?_toUTF8, Option.elim_some]

theorem ending_runFile :
    (runFile m input text).ending =
      .ok ((evaluatorFor m "f.txt").status (Batch.expressions (Text.fileLines text))) := by
  rw [runFile_eq]
  show (evaluateFile _ _ _ _).result = _
  rw [result_evaluateFile _ (readText_runFile text), printing_of_digits significantDigits_default]
  rfl

theorem stdout_runFile :
    (runFile m input text).stdout =
      String.join ((fileValues (evaluatorFor m "f.txt") text).map (resultLine 15)) := by
  rw [runFile_eq]
  exact printed_evaluateFile _ significantDigits_default (readText_runFile text)

theorem ending_runPiped :
    (runPiped m files text).ending =
      .ok ((evaluatorFor m "<stdin>").status (Batch.expressions (Text.streamLines text))) := by
  rw [runPiped_eq]
  show (evaluateAll _ _ _).result = _
  rw [result_evaluateAll, printing_of_digits significantDigits_default]
  rfl

theorem stdout_runPiped :
    (runPiped m files text).stdout = String.join (((evaluatorFor m "<stdin>").values
      (Batch.expressions (Text.streamLines text))).map (resultLine 15)) := by
  rw [runPiped_eq]
  exact printed_evaluateAll _ significantDigits_default _

/-- Where a file has the lines that a piped text has, the runs on them agree. -/
theorem agrees_of_lines {text' : String} (h : Text.fileLines text = Text.streamLines text') :
    (runFile m input text).Agrees (runPiped m files text') := by
  -- The evaluators for the two sources differ in what they say about failures only.
  have hsource : evaluatorFor m "f.txt" = { evaluatorFor m "<stdin>" with source := "f.txt" } := rfl
  rw [Transcript.Agrees, ending_runFile, stdout_runFile, ending_runPiped, stdout_runPiped,
    fileValues, ← h, hsource, Evaluator.status_source, Evaluator.values_source]
  generalize Batch.expressions (Text.fileLines text) = texts
  rw [or_self]
  intro hstatus
  rw [if_pos (Except.ok.inj hstatus)]
  exact ⟨hstatus, hstatus, rfl⟩

/-- The run on a file agrees with the run on its text piped in, once the breaks of a file have
    become line feeds, or if there are only line feeds and carriage returns among them. -/
theorem runFile_agrees :
    (runFile m input text).Agrees (runPiped m files (Text.withLineFeeds text)) ∧
      ((∀ c ∈ text.toList, Text.isFileBreak c → c = '\n' ∨ c = '\r') →
        (runFile m input text).Agrees (runPiped m files text)) :=
  ⟨agrees_of_lines m input files text (Text.streamLines_withLineFeeds text).symm,
    fun h => agrees_of_lines m input files text (Text.fileLines_eq_streamLines h)⟩

/-- Two lines with an expression each, cut apart by a carriage return. -/
theorem runFile_agrees_twoLines :
    (runFile .plain (.ofText false "") "1\r\n2").ending = .ok 0 ∧
      (runFile .plain (.ofText false "") "1\r\n2").Agrees
        (runPiped .plain (Directory.read ⟨[]⟩) "1\r\n2") := by
  have hbreaks : ("1\r\n2".toList.all fun c =>
      !Text.isFileBreak c || (c == '\n' || c == '\r')) = true := by decide +kernel
  constructor
  · rw [ending_runFile]
    exact congrArg Except.ok (by decide +kernel)
  · refine (runFile_agrees .plain _ _ "1\r\n2").2 fun c hmem hbreak => ?_
    simpa [hbreak] using List.all_eq_true.1 hbreaks c hmem

/-- A form feed between two numbers ends a line of a file, but no line that is piped in. -/
theorem not_runFile_agrees_formFeed :
    ¬ (runFile .plain (.ofText false "") "1\x0c2").Agrees
      (runPiped .plain (Directory.read ⟨[]⟩) "1\x0c2") := by
  have hfile : (runFile .plain (.ofText false "") "1\x0c2").ending = .ok 0 := by
    rw [ending_runFile]
    exact congrArg Except.ok (by decide +kernel)
  have hpiped : (runPiped .plain (Directory.read ⟨[]⟩) "1\x0c2").ending = .ok 1 := by
    rw [ending_runPiped]
    exact congrArg Except.ok (by decide +kernel)
  intro h
  have hended := (h (.inl hfile)).2.1
  rw [hpiped] at hended
  exact absurd hended nofun

end CommandLine

end Calculator
