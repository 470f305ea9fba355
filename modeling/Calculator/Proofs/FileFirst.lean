import Calculator.Proofs.Independence

/-!
# A file before texts

A command line may name a file and give texts as well. The file comes first, and all of it
counts: if one of its entries fails, nothing is printed, not even the values of the entries
before, and no text is evaluated. The report is that on the first failure
(`Batch.FirstFailure`). If none fails, the values of the file are printed, and then the run
goes on as if only the texts had been given (`program_file_separator`).
-/

namespace Calculator

namespace CommandLine

variable (m : Elementary) (s : Surroundings) {r : Request} {path contents : String}

/-- What is left of a request whose file fails is left by the file. -/
theorem run_of_status_ne_zero (hfile : r.file = some path) {status : Nat} (hne : status ≠ 0)
    (hstatus : (evaluateFile (evaluatorFor m path) s.files r.precision path).result = .ok status) :
    r.run m s = evaluateFile (evaluatorFor m path) s.files r.precision path := by
  rw [Request.run, hfile]
  dsimp only
  rw [Run.bind_of_ok hstatus, decide_eq_true hne, Bool.true_or, if_pos rfl]
  exact (Run.bind_of_ok hstatus pure).symm.trans (Run.bind_pure _)

/-- What is left of texts after a file: nothing, if there are none. -/
def afterFile (xs : List String) : Transcript :=
  if xs = [] then ⟨"", "", .ok 0⟩ else program m s ("--" :: xs)

/-- Once a file is done, its request goes on with the texts. -/
theorem transcript_run_of_file (hfile : r.file = some path) (hprecision : r.precision = 15)
    {printed : String}
    (h : (evaluateFile (evaluatorFor m path) s.files r.precision path).transcript false =
      ⟨printed, "", .ok 0⟩) :
    (r.run m s).transcript false =
      { afterFile m s r.expressions with
        stdout := printed ++ (afterFile m s r.expressions).stdout } := by
  have hstatus := congrArg Transcript.ending h
  rw [Run.transcript_eq] at h
  obtain ⟨hprinted, hreported, -⟩ := Transcript.mk.inj h
  rw [Request.run, hfile]
  dsimp only
  rw [Run.transcript_bind hstatus, hprinted, hreported, String.empty_append, afterFile]
  by_cases hexpressions : r.expressions = []
  · rw [if_pos hexpressions, hexpressions]
    rfl
  · have hempty : ¬ ((0 ≠ 0 : Bool) || r.expressions.isEmpty) = true := by
      simpa using hexpressions
    rw [if_neg hexpressions, if_neg hempty, hprecision, program_separator m s hexpressions,
      transcript_evaluateAll _ significantDigits_default]

/-- A file comes before the texts after the separator. If one of its entries fails, the report
    on the first that does is all that is left of the run, and no text is evaluated: not even
    the records for debugging depend on the texts. Otherwise its values are printed, one for
    each entry in order, and then the run goes on as if the texts alone had been given. -/
theorem program_file_separator (hne : path ≠ "") (hdash : path.toList.head? ≠ some '-')
    (hread : readText s.files path = .ok contents) (xs : List String) :
    let v := evaluatorFor m path
    let argv (xs : List String) := "--file" :: path :: "--" :: xs
    ((∃ e ∈ Batch.entries contents, ∃ f, v.evaluate e.text = .error f) →
      ∃ e f, Batch.FirstFailure v (Batch.entries contents) e f ∧
        program m s (argv xs) =
          ⟨"", (f.withSource (path ++ ":" ++ toString e.number)).render, .ok 1⟩ ∧
        ∀ xs', program m s ("--verbose" :: argv xs) = program m s ("--verbose" :: argv xs')) ∧
    ((∀ e ∈ Batch.entries contents, ∃ x, v.evaluate e.text = .ok x) →
      ∃ answers : List Batch.Answer, answers.map (·.entry) = Batch.entries contents ∧
        (∀ a ∈ answers, v.evaluate a.entry.text = .ok a.value) ∧
        program m s (argv xs) =
          { afterFile m s xs with
            stdout := String.join (answers.map fun a => resultLine 15 a.value) ++
              (afterFile m s xs).stdout }) := by
  intro v argv
  -- The command line asks for the file and keeps the texts, whatever they are.
  have hrequest (verbose : Bool) (xs : List String) :
      program m s ((if verbose then ["--verbose"] else []) ++ argv xs) =
        (Request.run m s { file := some path, verbose, expressions := xs }).transcript verbose := by
    rw [program, Request.read_file_separator hne hdash]
  refine ⟨fun hfails => ?_, fun hvalues => ?_⟩
  · obtain ⟨e, f, hfirst⟩ := Batch.exists_firstFailure hfails
    have hfailure : Batch.evaluate v path contents =
        .error (f.withSource (Batch.sourceOf path e)) :=
      (Batch.evaluate_eq_mapM v path contents).trans (hfirst.mapM_answerTo path)
    have hfile : (evaluateFile v s.files 15 path).transcript false =
        ⟨"", (f.withSource (Batch.sourceOf path e)).render, .ok 1⟩ :=
      transcript_evaluateFile_of_failure v hread hfailure
    have hrun (verbose : Bool) (xs : List String) := run_of_status_ne_zero m s
      (r := { file := some path, verbose, expressions := xs }) rfl (by decide : 1 ≠ 0)
      (congrArg Transcript.ending hfile)
    refine ⟨e, f, hfirst, ?_, fun xs' => ?_⟩
    · exact (hrequest false xs).trans ((congrArg _ (hrun false xs)).trans hfile)
    · refine (hrequest true xs).trans (.trans ?_ (hrequest true xs').symm)
      rw [hrun, hrun]
  · obtain ⟨answers, hanswers, hentries, hvalues⟩ := Batch.exists_mapM_answerTo v path hvalues
    refine ⟨answers, hentries, hvalues, (hrequest false xs).trans ?_⟩
    rw [← Batch.evaluate_eq_mapM] at hanswers
    exact transcript_run_of_file m s (r := { file := some path, expressions := xs }) rfl rfl
      (transcript_evaluateFile_of_answers v significantDigits_default hread hanswers)

/-- The second of three lines fails, so neither the value of the first nor the text counts. -/
theorem program_file_separator_secondLine :
    let s : Surroundings := ⟨oneFile "1\n2 +\n1/0".toUTF8, .ofText false ""⟩
    "f.txt" ≠ "" ∧ "f.txt".toList.head? ≠ some '-' ∧
      readText s.files "f.txt" = .ok "1\n2 +\n1/0" ∧
      (program .plain s ["--file", "f.txt", "--", "3"]).stdout = "" ∧
      (program .plain s ["--file", "f.txt", "--", "3"]).ending = .ok 1 := by
  intro s
  have hread : readText s.files "f.txt" = .ok "1\n2 +\n1/0" := readText_runFile _
  have hentry : (⟨2, "2 +"⟩ : Batch.Entry) ∈ Batch.entries "1\n2 +\n1/0" := by decide +kernel
  have hfails : (evaluatorFor .plain "f.txt").evaluate "2 +" =
      .error { fault := .unexpectedEnd, text := "2 +", position := 3, source := "f.txt" } :=
    Evaluator.failure?_eq_some_iff.1 (by decide +kernel)
  obtain ⟨e, f, -, hprogram, -⟩ := (program_file_separator .plain s (by decide) (by decide)
    hread ["3"]).1 ⟨_, hentry, _, hfails⟩
  exact ⟨by decide, by decide, hread, by rw [hprogram], by rw [hprogram]⟩

end CommandLine

end Calculator
