import Calculator.Proofs.Arguments
import Calculator.Proofs.Lines
import Calculator.Proofs.Reporting

/-!
# Texts on their own

Texts can be given on the command line, after the separator, or be piped in, one on each
line. A text that fills a line (`Batch.FillsLine`) is evaluated alike in both ways: the runs
end with the same status and print the same, and their reports differ only where they name
the source (`program_separator_eq_runPiped`).

In both ways a text is evaluated as if it were alone. What the run on several texts leaves
is what is left by the runs on the first of them and on the others.
-/

namespace Calculator

namespace Batch

/-- A text that is all there is on a line: it is not empty, has no blanks at its ends, does
    not start like a comment, and does not break. -/
structure FillsLine (x : String) : Prop where
  ne_empty : x ≠ ""
  strip_eq : Text.strip x = x
  head?_ne : x.toList.head? ≠ some '#'
  unbroken : Text.Unbroken x

theorem fillsLine_iff (x : String) :
    FillsLine x ↔ x ≠ "" ∧ Text.strip x = x ∧ x.toList.head? ≠ some '#' ∧
      '\n' ∉ x.toList ∧ '\r' ∉ x.toList :=
  ⟨fun ⟨h₁, h₂, h₃, h₄⟩ => ⟨h₁, h₂, h₃, h₄⟩, fun ⟨h₁, h₂, h₃, h₄⟩ => ⟨h₁, h₂, h₃, h₄⟩⟩

instance (x : String) : Decidable (FillsLine x) := decidable_of_iff _ (fillsLine_iff x).symm

variable {xs : List String}

theorem FillsLine.isExpression {x : String} (h : FillsLine x) : isExpression x = true := by
  rw [Batch.isExpression]
  cases hchars : x.toList with
  | nil => exact absurd (String.toList_inj.1 hchars) h.ne_empty
  | cons c cs =>
    refine bne_iff_ne.2 fun hc => h.head?_ne ?_
    rw [hchars, hc, List.head?_cons]

/-- Texts that fill their lines are the expressions among these lines. -/
theorem expressions_of_fillsLine (h : ∀ x ∈ xs, FillsLine x) : expressions xs = xs := by
  rw [expressions, List.map_congr_left fun x hx => (h x hx).strip_eq, List.map_id']
  exact List.filter_eq_self.2 fun x hx => (h x hx).isExpression

theorem expressions_streamLines (h : ∀ x ∈ xs, FillsLine x) {text : String}
    (htext : Text.OnePerLine xs text) : expressions (Text.streamLines text) = xs := by
  rw [Text.streamLines_of_onePerLine (fun x hx => (h x hx).unbroken)
    (fun x hx => (h x hx).ne_empty) htext, expressions_of_fillsLine h]

end Batch

namespace CommandLine

/-- Another source is named in the reports, and nothing else is changed. -/
theorem Transcript.ofTexts_source (v : Evaluator) (source : String) (digits : Nat)
    (texts : List String) :
    ofTexts { v with source } digits texts =
      { ofTexts v digits texts with
        stderr := String.join ((v.failures texts).map (·.reportFrom source)) } := by
  have hrender : (fun f : Failure => (f.withSource source).render) = (·.reportFrom source) :=
    funext fun f => f.render_withSource source
  rw [ofTexts, v.values_source, v.status_source, v.failures_source, List.map_map,
    Function.comp_def, hrender]
  rfl

variable (m : Elementary) (s : Surroundings) (files : Files) {xs : List String}

/-- What is left of texts that are given after the separator. -/
theorem program_separator (hne : xs ≠ []) :
    program m s ("--" :: xs) = .ofTexts (evaluatorFor m "<argv>") 15 xs := by
  have hexpressions : (!xs.isEmpty) = true := by simpa using hne
  rw [program, Request.read_separator]
  dsimp only
  rw [Request.run]
  dsimp only
  rw [if_pos hexpressions, transcript_evaluateAll _ significantDigits_default]

/-- What is left of texts that are piped in. -/
theorem runPiped_of_fillsLine (h : ∀ x ∈ xs, Batch.FillsLine x) {text : String}
    (htext : Text.OnePerLine xs text) :
    runPiped m files text = .ofTexts (evaluatorFor m "<stdin>") 15 xs := by
  rw [runPiped_eq, Batch.expressions_streamLines h htext,
    transcript_evaluateAll _ significantDigits_default]

/-- Texts that fill their lines leave the same, given after the separator or piped in, but for
    the source in the second line of each report: the values, the reports on failures, and a
    status that says whether there are any. Several texts leave what the first of them leave,
    and then the others. -/
theorem program_separator_eq_runPiped (hne : xs ≠ []) (h : ∀ x ∈ xs, Batch.FillsLine x)
    {text : String} (htext : Text.OnePerLine xs text) :
    let v := evaluatorFor m "<argv>"
    let given := program m s ("--" :: xs)
    let piped := runPiped m files text
    (given.ending = .ok (v.status xs) ∧ piped.ending = given.ending) ∧
      (given.stdout = String.join ((v.values xs).map (resultLine 15)) ∧
        piped.stdout = given.stdout) ∧
      (given.stderr = String.join ((v.failures xs).map Failure.render) ∧
        given.stderr = String.join ((v.failures xs).map (·.reportFrom "<argv>")) ∧
        piped.stderr = String.join ((v.failures xs).map (·.reportFrom "<stdin>"))) ∧
      ∀ ys, ys ≠ [] → (∀ y ∈ ys, Batch.FillsLine y) →
        program m s ("--" :: (xs ++ ys)) = given.followedBy (program m s ("--" :: ys)) ∧
          ∀ text', Text.OnePerLine ys text' →
            runPiped m files (Text.unlines xs ++ text') =
              piped.followedBy (runPiped m files text') := by
  intro v given piped
  have hgiven : given = .ofTexts v 15 xs := program_separator m s hne
  -- The evaluators for the two sources differ in what they say about failures only.
  have hargv := Transcript.ofTexts_source v "<argv>" 15 xs
  have hstdin := Transcript.ofTexts_source v "<stdin>" 15 xs
  have hpiped : piped = .ofTexts { v with source := "<stdin>" } 15 xs :=
    runPiped_of_fillsLine m files h htext
  refine ⟨?_, ?_, ?_, fun ys hne' h' => ⟨?_, fun text' htext' => ?_⟩⟩
  · rw [hpiped, hstdin, hgiven]
    exact ⟨rfl, rfl⟩
  · rw [hpiped, hstdin, hgiven]
    exact ⟨rfl, rfl⟩
  · rw [hpiped, hstdin, hgiven]
    exact ⟨rfl, congrArg Transcript.stderr hargv, rfl⟩
  · rw [hgiven, program_separator m s hne', ← Transcript.ofTexts_append]
    exact program_separator m s (List.append_ne_nil_of_left_ne_nil hne ys)
  · rw [hpiped, runPiped_of_fillsLine m files h' htext']
    refine (runPiped_of_fillsLine m files (List.forall_mem_append.2 ⟨h, h'⟩)
      (Text.onePerLine_append xs htext')).trans ?_
    exact Transcript.ofTexts_append ..

/-- Among texts, one that looks like a switch is a text, too. -/
theorem program_separator_eq_runPiped_switch :
    let s : Surroundings := ⟨Directory.read ⟨[]⟩, .ofText true "2\n"⟩
    let xs := ["1", "--file", "1/0"]
    xs ≠ [] ∧ (∀ x ∈ xs, Batch.FillsLine x) ∧ Text.OnePerLine xs "1\n--file\n1/0" ∧
      (runPiped .plain s.files "1\n--file\n1/0").stdout =
        (program .plain s ("--" :: xs)).stdout := by
  intro s xs
  have hne : xs ≠ [] := by decide
  have hxs : ∀ x ∈ xs, Batch.FillsLine x := by decide +kernel
  have htext : Text.OnePerLine xs "1\n--file\n1/0" := .inr (by decide +kernel)
  exact ⟨hne, hxs, htext, (program_separator_eq_runPiped .plain s s.files hne hxs htext).2.1.2⟩

end CommandLine

end Calculator
