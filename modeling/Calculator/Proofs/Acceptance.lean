import Calculator.Evaluator
import Calculator.Proofs.Machines
import Calculator.Proofs.Soundness
import Calculator.Proofs.Tokens
import Calculator.Proofs.Unambiguous

/-!
# What is accepted

Only sentences have values. A text with a value is that of one sentence and of no other,
and the value is its denotation; so whatever sentences do not hold is found in no text
that has a value.
-/

namespace Calculator.Evaluator

open Grammar

/-- A text with a value is spelled by exactly one tree, which denotes the value. In it
    operands and operators take turns, parentheses are balanced, and every character that
    is no blank is one of the grammar. -/
theorem sentence_of_evaluate_ok (v : Evaluator) (s : String) (x : Binary64)
    (h : v.evaluate s = .ok x) :
    (∃! t : Sentence, t.text = s) ∧
      (∀ t : Sentence, t.text = s → t.denote v.machine = .ok x) ∧
      Orderly (tokens s.toList) ∧
      ∀ a ∈ s.toList, Text.isBlank a = true ∨ a.isAlphanum = true ∨
        a ∈ ['.', '+', '-', '*', '/', '%', '^', '(', ')'] := by
  have hread := Reader.ends_whole v.machine v.frames s
  rw [evaluate] at h
  cases hrun : (Reader.whole v.machine v.frames).run (Cursor.start s) with
  | error e c =>
    rw [hrun] at h
    exact absurd h nofun
  | ok y c =>
    rw [hrun] at h hread
    obtain rfl : y = x := Except.ok.inj h
    obtain ⟨t, rfl, ht⟩ := hread
    have hunique : ∀ t' : Sentence, t'.text = t.text → t' = t := fun t' => Sentence.text_injective
    have hphrase : Phrase (tokens t.text.toList) := by
      rw [Sentence.text, String.toList_ofList, t.tokens_chars]
      exact t.expression.phrase
    refine ⟨⟨t, rfl, hunique⟩, fun t' ht' => hunique t' ht' ▸ ht, hphrase.orderly, fun a ha => ?_⟩
    refine (mem_chars_of_mem ha).imp_right ?_
    rintro ⟨token, htoken, ha⟩
    exact (hphrase.known token htoken).ascii ha

/-- The minus is applied to the power, and the blanks belong to the tree. -/
theorem sentence_of_evaluate_minus :
    ({ machine := .plain } : Evaluator).evaluate "-2 ** 0 * (.5 + 0.5)" = .ok (-.one) ∧
      ∃! t : Sentence, t.text = "-2 ** 0 * (.5 + 0.5)" :=
  have h : ({ machine := .plain } : Evaluator).evaluate "-2 ** 0 * (.5 + 0.5)" = .ok (-.one) := by
    decide +kernel
  ⟨h, (sentence_of_evaluate_ok _ _ _ h).1⟩

end Calculator.Evaluator
