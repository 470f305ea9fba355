import Calculator.Proofs.Embedding
import Calculator.Reader.Step

/-!
# No look back

Whatever a step does at a cursor is decided by the characters that are left there. With another
text put before its own, and the cursor moved on by the length of that text, it gives the same
answer or finds the same fault, and only the offsets are others: that of the fault, and that of
the cursor after it (`perform_append`). Readers that save an offset, be it that of an operator, of
a name or of a number, save the shifted one.

That a text has another one before it, and nothing after it, is a case of a text within a text
(`Carried`), so only the steps that are no levels are new here.
-/

namespace Calculator

/-- The cursor with the same characters left, `n` characters further on. -/
def Cursor.shifted (n : Nat) (c : Cursor) : Cursor := ⟨c.offset + n, c.rest⟩

/-- The same fault, `n` characters further on. -/
def Located.shifted (n : Nat) (e : Located) : Located := ⟨e.fault, e.position + n⟩

namespace Reader

/-- A step is the same `n` characters further on, unless it is given a position. -/
def Step.shifted (n : Nat) : Step → Step
  | power base exponent position => power base exponent (position + n)
  | modulo dividend divisor position => modulo dividend divisor (position + n)
  | checkFinite value position => checkFinite value (position + n)
  | step => step

variable {n : Nat} {c d : Cursor}

/-- With nothing after the texts, what is left is the same. -/
theorem embedded_nil_iff : Embedded n [] c d ↔ d = c.shifted n := by
  constructor
  · intro h
    rw [Cursor.shifted, ← h.offset, ← h.rest_eq]
  · rintro rfl
    exact ⟨(List.append_nil _).symm, rfl⟩

/-! ## Steps -/

theorem carried_skipBlanks (h : Embedded n [] c d) :
    Carried n [] (skipBlanks.run c) (skipBlanks.run d) :=
  ⟨_, rfl, h.pastBlanks (.inl rfl)⟩

theorem carried_atEnd (h : Embedded n [] c d) : Carried n [] (atEnd.run c) (atEnd.run d) := by
  rw [run_atEnd, run_atEnd, h.rest_eq]
  exact ⟨d, rfl, h⟩

theorem carried_peek (k : Nat) (h : Embedded n [] c d) :
    Carried n [] ((peek k).run c) ((peek k).run d) := by
  rw [run_peek, run_peek, h.rest_eq]
  exact ⟨d, rfl, h⟩

/-- Both cursors stop at the end. -/
theorem carried_advance (k : Nat) (h : Embedded n [] c d) :
    Carried n [] ((advance k).run c) ((advance k).run d) := by
  obtain rfl := embedded_nil_iff.1 h
  refine ⟨_, rfl, (List.append_nil _).symm, ?_⟩
  exact Nat.add_right_comm ..

variable (m : Elementary) (frames : Nat)

theorem carried_whole (h : Embedded n [] c d) :
    Carried n [] ((whole m frames).run c) ((whole m frames).run d) := by
  refine (carried_read (.inl rfl) m frames .expression h).bind fun x _ _ _ h₁ => ?_
  refine (carried_skipBlanks h₁).bind fun _ _ _ _ h₂ => ?_
  refine (carried_atEnd h₂).bind fun ended _ _ _ h₃ => ?_
  cases ended
  · exact carried_unexpected h₃
  · exact carried_pure h₃ x

/-- An answer is made of what was read. -/
theorem Carried.answer {α : Type} {r r' : Reader α} (h : Carried n [] (r.run c) (r'.run d))
    (f : α → Answer) :
    Carried n [] ((r >>= fun a => pure (f a)).run c) ((r' >>= fun a => pure (f a)).run d) :=
  h.bind fun a _ _ _ h' => carried_pure h' (f a)

/-- A step gives the same further on. -/
theorem carried_step (step : Step) (h : Embedded n [] c d) :
    Carried n [] ((step.reader m frames).run c) (((step.shifted n).reader m frames).run d) := by
  have hlevel (l : Level) := (carried_read (.inl rfl) m frames l h).answer .value
  have hdone {r : Reader Unit} (hr : Carried n [] (r.run c) (r.run d)) := hr.answer fun _ => .done
  cases step with
  | whole => exact (carried_whole m frames h).answer .value
  | expression => exact hlevel .expression
  | term => exact hlevel .term
  | factor => exact hlevel .factor
  | primary => exact hlevel .primary
  | call => exact hlevel .call
  | number => exact (carried_number (.inl rfl) h).answer .value
  | powerSign => exact (carried_powerSign (.inl rfl) h).answer .truth
  | skipBlanks => exact hdone (carried_skipBlanks h)
  | atEnd => exact (carried_atEnd h).answer .truth
  | peek ahead => exact (carried_peek ahead h).answer .character
  | advance count => exact hdone (carried_advance count h)
  | power base exponent position => exact (carried_valueAt_int h position _).answer .value
  | modulo dividend divisor position => exact (carried_valueAt_int h position _).answer .value
  | checkFinite value position =>
    exact (carried_valueAt_int h position _).answer fun _ => .done

/-- What a step leaves, further on. -/
def shiftedAnswer (n : Nat) (r : Except Located Answer × Cursor) :
    Except Located Answer × Cursor :=
  (r.1.mapError (Located.shifted n), r.2.shifted n)

theorem perform_shifted (n : Nat) (step : Step) (c : Cursor) :
    (step.shifted n).perform m frames (c.shifted n) =
      shiftedAnswer n (step.perform m frames c) := by
  have h := carried_step m frames step (embedded_nil_iff.2 (rfl : c.shifted n = c.shifted n))
  rw [Step.perform, Step.perform]
  cases hrun : (step.reader m frames).run c with
  | ok a c' =>
    rw [hrun] at h
    obtain ⟨d, hd, hembedded⟩ := h
    rw [hd, embedded_nil_iff.1 hembedded]
    rfl
  | error e c' =>
    rw [hrun] at h
    obtain ⟨hne, _⟩ | ⟨d, hd, hembedded⟩ := h
    · exact absurd rfl hne
    · rw [hd, embedded_nil_iff.1 hembedded]
      rfl

/-- Steps in a row, some of which may fail, all leave the same further on. -/
theorem performAll_shifted (n : Nat) (steps : List Step) (c : Cursor) :
    performAll m frames (steps.map (Step.shifted n)) (c.shifted n) =
      (performAll m frames steps c).map (shiftedAnswer n) := by
  induction steps generalizing c with
  | nil => rfl
  | cons step steps ih =>
    rw [List.map_cons, performAll, perform_shifted, performAll, List.map_cons]
    exact congrArg _ (ih _)

/-- A text `s`, read from the offset `k` on, and a longer text `u ++ s`, read from the same
    character on: a step gives the same value in both, or the same fault with its position
    shifted by the length of `u`, and the cursors stop at the same character. A step that reads is
    the same step in both. One that is given a position is given the shifted one. -/
theorem perform_append (step : Step) (u s : String) (k : Nat) :
    let alone := step.perform m frames ⟨k, s.toList.drop k⟩
    (step.shifted u.length).perform m frames
        ⟨u.length + k, (u ++ s).toList.drop (u.length + k)⟩ =
      (alone.1.mapError fun e => ⟨e.fault, e.position + u.length⟩,
        ⟨alone.2.offset + u.length, alone.2.rest⟩) := by
  have hcursor : (⟨u.length + k, (u ++ s).toList.drop (u.length + k)⟩ : Cursor) =
      Cursor.shifted u.length ⟨k, s.toList.drop k⟩ := by
    rw [Cursor.shifted, String.toList_append, ← String.length_toList, List.drop_length_add_append,
      Nat.add_comm]
  rw [hcursor]
  exact perform_shifted m frames u.length step _

end Reader

end Calculator
