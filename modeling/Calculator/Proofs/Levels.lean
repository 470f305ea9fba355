import Calculator.Proofs.Run

/-!
# The levels of reading

The five readers that call each other are one reader per *level* of the grammar
(`Reader.read`), so that what holds of all of them is said once and proved by one
induction on the frames. For each level there is an equation with what it does when
it has a frame for itself: the choice that it makes at the cursor, and then the
reader that goes on (`group`, `powered`, `raised`).
-/

namespace Calculator

/-- The levels of the grammar. -/
inductive Level
  | expression
  | term
  | factor
  | primary
  | call
  deriving DecidableEq, Repr

/-- How many levels are gone through, from a level down, before a character is passed. -/
def Level.height : Level → Nat
  | expression => 5
  | term => 4
  | factor => 3
  | primary => 2
  | call => 1

namespace Reader

/-- What follows the sign of a power is its exponent; without a sign, there is no
    power. -/
def raised (m : Elementary) (frames : Nat) (base : Binary64) : Reader Binary64 := do
  let start ← position
  if ← powerSign then
    let exponent ← factor m frames
    valueAt start (power m base exponent)
  else return base

/-- A primary with or without an exponent. -/
def powered (m : Elementary) (frames : Nat) : Reader Binary64 := do
  let base ← primary m frames
  skipBlanks
  raised m frames base

/-- A group, past its opening parenthesis. -/
def group (m : Elementary) (frames : Nat) : Reader Binary64 := do
  let value ← expression m frames
  expect ')' (.unclosed false)
  return value

/-- A call, past its name. -/
def argument (m : Elementary) (frames : Nat) (start : Nat) (name : String) : Reader Binary64 := do
  expect '(' (.uncalled name)
  let argument ← expression m frames
  expect ')' (.unclosed true)
  valueAt start (applyNamed m name argument)

variable (m : Elementary)

/-- The reader of a level. -/
def read : Level → (frames : Nat) → Reader Binary64
  | .expression => expression m
  | .term => term m
  | .factor => factor m
  | .primary => primary m
  | .call => call m

/-- Without a frame, no level reads anything. -/
theorem read_zero (l : Level) : read m l 0 = tooDeep := by
  cases l <;> rfl

theorem read_expression (frames : Nat) :
    read m .expression (frames + 1) = chain Operator.additive? (read m .term frames) := rfl

theorem read_term (frames : Nat) :
    read m .term (frames + 1) = chain Operator.multiplicative? (read m .factor frames) := rfl

/-- A factor is a minus and a factor, or begins with a primary. -/
theorem run_factor (frames : Nat) (c : Cursor) :
    (read m .factor (frames + 1)).run c =
      if c.pastBlanks.rest = [] then
        .error ⟨.unexpectedEnd, c.pastBlanks.offset⟩ c.pastBlanks
      else if c.pastBlanks.rest.head? = some '-' then
        (read m .factor frames >>= fun x => pure (-x)).run (c.pastBlanks.forward 1)
      else (powered m frames).run c.pastBlanks := by
  show (factor m (frames + 1)).run c = _
  rw [factor, run_skipBlanks_bind, run_atEnd_bind]
  by_cases h : c.pastBlanks.rest = []
  · rw [if_pos h, h]
    rfl
  · have he : c.pastBlanks.rest.isEmpty = false := by simpa using h
    rw [if_neg h, he, if_neg Bool.false_ne_true, run_skip_bind]
    rfl

/-- A primary begins with a parenthesis, a letter, a digit or a point. -/
theorem run_primary (frames : Nat) (c : Cursor) :
    (read m .primary (frames + 1)).run c =
      match c.rest.head? with
      | none => (unexpected : Reader Binary64).run c
      | some a =>
        if a = '(' then (group m frames).run (c.forward 1)
        else if a.isAlpha then (read m .call frames).run c
        else if a.isDigit || a = '.' then number.run c
        else (unexpected : Reader Binary64).run c := by
  show (primary m (frames + 1)).run c = _
  rw [primary, run_peek_bind, ← List.head?_eq_getElem?]
  cases c.rest.head? with
  | none => rfl
  | some a =>
    dsimp only
    split
    · rfl
    · split
      · rfl
      · split <;> rfl

/-- A call is a name and what follows it. -/
theorem run_call (frames : Nat) (c : Cursor) :
    (read m .call (frames + 1)).run c =
      (argument m frames c.offset (String.ofList (c.rest.takeWhile Char.isAlphanum))).run
        (c.forward (c.rest.takeWhile Char.isAlphanum).length) := rfl

/-- The sign of a power is one caret or two stars side by side. -/
theorem run_powerSign (c : Cursor) :
    powerSign.run c =
      if c.rest.head? = some '^' then .ok true (c.forward 1)
      else if c.rest[0]? = some '*' ∧ c.rest[1]? = some '*' then .ok true (c.forward 2)
      else .ok false c := by
  rw [powerSign, run_skip_bind]
  by_cases h : c.rest.head? = some '^'
  · rw [if_pos h, if_pos h]
    rfl
  · rw [if_neg h, if_neg h, if_neg Bool.false_ne_true, run_peek_bind, run_peek_bind]
    by_cases hs : c.rest[0]? = some '*' ∧ c.rest[1]? = some '*'
    · simp only [hs, and_self, if_true]
      rfl
    · rw [if_neg hs, if_neg (by simpa using hs)]
      rfl

/-! ## All levels move forward -/

theorem progresses_raised {frames : Nat} (h : ∀ l, Progresses (read m l frames))
    (base : Binary64) : Progresses (raised m frames base) := by
  refine progresses_position.bind fun start => progresses_powerSign.bind fun b => ?_
  cases b
  · exact progresses_pure base
  · exact (h .factor).bind fun _ => progresses_valueAt _ _

theorem progresses_powered {frames : Nat} (h : ∀ l, Progresses (read m l frames)) :
    Progresses (powered m frames) :=
  (h .primary).bind fun base => progresses_skipBlanks.bind fun _ => progresses_raised m h base

theorem progresses_group {frames : Nat} (h : ∀ l, Progresses (read m l frames)) :
    Progresses (group m frames) :=
  (h .expression).bind fun value => (progresses_expect _ _).bind fun _ => progresses_pure value

theorem progresses_argument {frames : Nat} (h : ∀ l, Progresses (read m l frames)) (start : Nat)
    (name : String) : Progresses (argument m frames start name) :=
  (progresses_expect _ _).bind fun _ => (h .expression).bind fun _ =>
    (progresses_expect _ _).bind fun _ => progresses_valueAt _ _

/-- Where a reader leads from a cursor further on, it leads from before. -/
theorem exists_reaches_of_run {r : Reader Binary64} (h : Progresses r) {c c' : Cursor}
    {w : List Char} (hc : c.Reaches w c') : ∃ v, c.Reaches v (final (r.run c')) := by
  obtain ⟨v, hv⟩ := h c'
  exact ⟨w ++ v, hc.trans hv⟩

/-- No level moves the cursor back. -/
theorem progresses_read (frames : Nat) : ∀ l, Progresses (read m l frames) := by
  induction frames with
  | zero =>
    intro l
    rw [read_zero]
    exact progresses_fail _
  | succ frames ih =>
    intro l
    cases l with
    | expression =>
      rw [read_expression]
      exact progresses_chain (ih .term)
    | term =>
      rw [read_term]
      exact progresses_chain (ih .factor)
    | factor =>
      intro c
      rw [run_factor]
      split
      · exact ⟨_, c.reaches_pastBlanks⟩
      · split
        · exact exists_reaches_of_run ((ih .factor).bind fun x => progresses_pure (-x))
            (c.reaches_pastBlanks.trans (c.pastBlanks.reaches_forward 1))
        · exact exists_reaches_of_run (progresses_powered m ih) c.reaches_pastBlanks
    | primary =>
      intro c
      rw [run_primary]
      split
      · exact progresses_unexpected c
      · split
        · exact exists_reaches_of_run (progresses_group m ih) (c.reaches_forward 1)
        · split
          · exact ih .call c
          · split
            · exact progresses_number c
            · exact progresses_unexpected c
    | call =>
      intro c
      rw [run_call]
      exact exists_reaches_of_run (progresses_argument m ih _ _) (c.reaches_takeWhile _)

end Reader

end Calculator
