import Calculator.Proofs.Lookahead
import Calculator.Proofs.Machines
import Calculator.Proofs.Results
import Calculator.Reader.Step

/-!
# What a failure depends on

A text that fails does so because of its beginning. The readers do not look further ahead
than they say (`Reader.steady_whole`), so the failure of a text is that of every text
which begins with the same characters: those that were passed, the one at which reading
stopped, and, since this may be the first of two stars, the one after it. What comes
later is never seen, nor how much of it there is.
-/

namespace Calculator

/-- Past the beginning of a text, a cursor is known by its offset. -/
theorem Cursor.eq_of_reaches_start {s : String} {w : List Char} {c : Cursor}
    (h : (Cursor.start s).Reaches w c) : c = ⟨c.offset, s.toList.drop c.offset⟩ := by
  have hoffset : c.offset = w.length := h.offset.trans (Nat.zero_add _)
  have hchars : s.toList = w ++ c.rest := h.rest
  rw [hchars, hoffset, List.drop_left, ← hoffset]

/-- Texts with the same first `n + 1` characters share what stands at the offsets up to
    `n`. -/
theorem Cursor.shares_start_of_take_eq {s t : String} {n : Nat}
    (h : t.toList.take (n + 1) = s.toList.take (n + 1)) :
    (Cursor.start s).Shares n (Cursor.start t) := by
  refine ⟨rfl, fun k hk => ?_⟩
  have hk' : k < n + 1 := Nat.lt_succ_of_le (Nat.zero_add k ▸ hk)
  show t.toList[k]? = s.toList[k]?
  rw [← List.getElem?_take_of_lt hk', h, List.getElem?_take_of_lt hk']

namespace Reader

variable (m : Elementary) (frames : Nat)

theorem progresses_whole : Progresses (whole m frames) := by
  refine (progresses_read m frames .expression).bind fun value => progresses_skipBlanks.bind
    fun _ => progresses_atEnd.bind fun ended => ?_
  cases ended
  · exact progresses_unexpected
  · exact progresses_pure value

/-- A whole text that is read by hand fails as its reader does. -/
theorem perform_whole_eq_error_iff {c c' : Cursor} {e : Located} :
    Step.whole.perform m frames c = (.error e, c') ↔ (whole m frames).run c = .error e c' := by
  have hreader : (Step.whole.reader m frames).run c =
      (whole m frames >>= fun x => pure (.value x)).run c := rfl
  rw [Step.perform, hreader, run_bind]
  cases (whole m frames).run c with
  | ok x c₁ => exact ⟨nofun, nofun⟩
  | error e₁ c₁ => simp

/-- If a text fails and the cursor stops at an offset, then every text that is the same up
    to the second character from there fails in the same way, and the cursor stops at the
    same offset. -/
theorem perform_whole_of_take_eq (s t : String) (e : Located) (c : Cursor)
    (h : Step.whole.perform m frames (Cursor.start s) = (.error e, c))
    (ht : t.toList.take (c.offset + 2) = s.toList.take (c.offset + 2)) :
    Step.whole.perform m frames (Cursor.start t) =
      (.error e, ⟨c.offset, t.toList.drop c.offset⟩) := by
  rw [perform_whole_eq_error_iff] at h ⊢
  have halike := steady_whole m frames (c.offset + 1) _ _ (Cursor.shares_start_of_take_eq ht)
  rw [h] at halike
  rcases halike (Nat.le_succ _) with hsame | ⟨hlast, _⟩
  · obtain ⟨w, hw⟩ := progresses_whole m frames (Cursor.start t)
    cases hrun : (whole m frames).run (Cursor.start t) with
    | ok x d =>
      rw [hrun] at hsame
      exact hsame.elim
    | error e' d =>
      rw [hrun] at hsame hw
      obtain ⟨rfl, hshares⟩ := hsame
      have hd := Cursor.eq_of_reaches_start hw
      rw [final, hshares.offset] at hd
      rw [hd]
  · -- The exceptions of the readers are at the last character that is shared, and reading
    -- stopped one before it.
    exact absurd hlast (Nat.ne_of_lt (Nat.lt_succ_self _))

/-- Here the second character counts: the quotient fails at the star, as no other star
    follows it. What comes after that does not matter. -/
theorem perform_whole_quotient :
    Step.whole.perform .plain 1000 (Cursor.start "1/0*2") =
        (.error ⟨.divisionByZero, 1⟩, ⟨3, ['*', '2']⟩) ∧
      Step.whole.perform .plain 1000 (Cursor.start "1/0*2^(") =
        (.error ⟨.divisionByZero, 1⟩, ⟨3, ['*', '2', '^', '(']⟩) ∧
      (Step.whole.perform .plain 1000 (Cursor.start "1/0**0")).1.toOption = some (.value .one) :=
  have h : Step.whole.perform .plain 1000 (Cursor.start "1/0*2") =
      (.error ⟨.divisionByZero, 1⟩, ⟨3, ['*', '2']⟩) :=
    Prod.ext (faultOf?_eq_some_iff.1 (by decide +kernel)) (by decide +kernel)
  ⟨h, perform_whole_of_take_eq _ _ _ _ _ _ h (by decide), by decide +kernel⟩

end Reader

end Calculator
