import Calculator.Fault
import Calculator.Text.Blank

/-!
# Readers

An expression is read from left to right. A reader stands at a *cursor*, an
offset into the text and the characters that are left, and either gives a value
and stands further on, or fails with a fault found at some offset; then, too, the
cursor stays where the failure left it. Readers only look at the characters that
are left, so they know nothing of the text before the cursor.
-/

namespace Calculator

/-- A place in a text: how many characters are read, and those that are left. -/
structure Cursor where
  offset : Nat
  rest : List Char
  deriving DecidableEq, Repr

/-- The cursor at the start of a text. -/
def Cursor.start (s : String) : Cursor := ⟨0, s.toList⟩

/-- The cursor `k` characters further on, but not past the end. -/
def Cursor.forward (c : Cursor) (k : Nat) : Cursor :=
  ⟨c.offset + (c.rest.take k).length, c.rest.drop k⟩

namespace Cursor

/-- Where the text ends. -/
def finish (c : Cursor) : Nat := c.offset + c.rest.length

/-- The end of the text stays where it is when the cursor moves. -/
theorem finish_forward (c : Cursor) (k : Nat) : (c.forward k).finish = c.finish := by
  simp only [forward, finish, List.length_take, List.length_drop]
  omega

/-- The cursor does not move back. -/
theorem offset_le_offset_forward (c : Cursor) (k : Nat) : c.offset ≤ (c.forward k).offset :=
  Nat.le_add_right ..

/-- The cursor does not move past the end. -/
theorem offset_le_finish (c : Cursor) : c.offset ≤ c.finish := Nat.le_add_right ..

/-- Moving on twice is moving on by the sum. -/
theorem forward_forward (c : Cursor) (j k : Nat) :
    (c.forward j).forward k = c.forward (j + k) := by
  simp only [forward, List.drop_drop, List.length_take, List.length_drop, mk.injEq, and_true]
  omega

end Cursor

/-- A fault and its position. Readers give the offset at which they found it; a
    given position may be any. -/
structure Located where
  fault : Fault
  position : Int
  deriving DecidableEq, Repr

/-- What reads a value from a cursor on, or fails. -/
abbrev Reader := EStateM Located Cursor

namespace Reader

/-- The offset of the cursor. -/
def position : Reader Nat := return (← get).offset

/-- The character `k` places after the cursor, if there is one. -/
def peek (k : Nat) : Reader (Option Char) := return (← get).rest[k]?

/-- Whether nothing is left. -/
def atEnd : Reader Bool := return (← get).rest.isEmpty

/-- Moves `k` characters on, but not past the end. -/
def advance (k : Nat) : Reader Unit := modify (·.forward k)

/-- Reads the longest run of characters of a class. -/
def takeWhile (p : Char → Bool) : Reader (List Char) := do
  let run := (← get).rest.takeWhile p
  advance run.length
  return run

/-- Moves past blanks. -/
def skipBlanks : Reader Unit := do
  let _ ← takeWhile Text.isBlank

/-- Moves past a character if it is the next one, and says whether it was. -/
def skip (c : Char) : Reader Bool := do
  if (← peek 0) == some c then
    advance 1
    return true
  else return false

/-- Fails at a position. -/
def failAt {α : Type} (position : Int) (fault : Fault) : Reader α := throw ⟨fault, position⟩

/-- Fails at the cursor. -/
def fail {α : Type} (fault : Fault) : Reader α := do failAt (← position) fault

/-- Fails at the cursor, because of the character there. -/
def unexpected {α : Type} : Reader α := do fail (.unexpectedCharacter (← peek 0))

/-- A computed value; if there is none, its fault is found at `position`. -/
def valueAt {α : Type} (position : Int) : Except Fault α → Reader α
  | .ok v => return v
  | .error fault => failAt position fault

/-- Moves past blanks and then past a character; fails if it does not follow. -/
def expect (c : Char) (fault : Fault) : Reader Unit := do
  skipBlanks
  unless ← skip c do fail fault

/-! ## What readers do at a cursor -/

theorem run_peek (k : Nat) (c : Cursor) : (peek k).run c = .ok c.rest[k]? c := rfl

theorem run_atEnd (c : Cursor) : atEnd.run c = .ok c.rest.isEmpty c := rfl

theorem run_takeWhile (p : Char → Bool) (c : Cursor) :
    (takeWhile p).run c =
      .ok (c.rest.takeWhile p) (c.forward (c.rest.takeWhile p).length) := rfl

/-- A character is passed exactly if it is the next one. -/
theorem run_skip (a : Char) (c : Cursor) :
    (skip a).run c =
      if c.rest.head? = some a then .ok true (c.forward 1) else .ok false c := by
  cases h : c.rest with
  | nil =>
    have hp : (peek 0).run c = .ok none c := by rw [run_peek, h]; rfl
    simp [skip, bind, EStateM.bind, EStateM.run] at hp ⊢
    rw [hp]
    rfl
  | cons b r =>
    have hp : (peek 0).run c = .ok (some b) c := by rw [run_peek, h]; rfl
    simp [skip, bind, EStateM.bind, EStateM.run] at hp ⊢
    rw [hp]
    by_cases hb : b = a
    · subst hb
      simp
      rfl
    · simp [hb]
      rfl

end Reader

end Calculator
