/-!
# Lines

A text is cut into lines at its *breaks*. What counts as a break depends on
where the text comes from: a stream that is read line by line breaks at line
feeds only (`isStreamBreak`), the contents of a file at every character that
ends a line, form feeds and the separators of the wider repertoire included
(`isFileBreak`). In both, a carriage return, alone or before a line feed, has
become a line feed beforehand (`unifyBreaks`).

The lines are given without their breaks, and a break at the very end of the
text starts no further line.
-/

namespace Calculator.Text

/-- Every carriage return, together with the line feed after it if there is
    one, becomes a line feed. -/
def unifyBreaks : List Char → List Char
  | [] => []
  | '\r' :: '\n' :: cs => '\n' :: unifyBreaks cs
  | c :: cs => (if c = '\r' then '\n' else c) :: unifyBreaks cs

/-- The pieces of a text between its breaks; a break at the end opens no
    piece. -/
def pieces (isBreak : Char → Bool) : List Char → List (List Char)
  | [] => []
  | c :: cs =>
    if isBreak c then [] :: pieces isBreak cs
    else match pieces isBreak cs with
      | [] => [[c]]
      | l :: ls => (c :: l) :: ls

/-- The breaks of a stream. -/
def isStreamBreak (c : Char) : Bool := c == '\n'

/-- The breaks of a file: line feed to carriage return, the separators U+001C to
    U+001E (but not U+001F), U+0085, U+2028 and U+2029. -/
def isFileBreak (c : Char) : Bool :=
  let n := c.toNat
  (0x0A ≤ n && n ≤ 0x0D) || (0x1C ≤ n && n ≤ 0x1E) || n == 0x85 || n == 0x2028 || n == 0x2029

/-- The lines of a text for a given notion of break. -/
def linesBy (isBreak : Char → Bool) (s : String) : List String :=
  (pieces isBreak (unifyBreaks s.toList)).map String.ofList

/-- The lines of a stream. -/
def streamLines (s : String) : List String := linesBy isStreamBreak s

/-- The lines of a file. -/
def fileLines (s : String) : List String := linesBy isFileBreak s

theorem pieces_break {isBreak : Char → Bool} {c : Char} (h : isBreak c = true) (cs : List Char) :
    pieces isBreak (c :: cs) = [] :: pieces isBreak cs := by
  simp [pieces, h]

/-- No piece holds a break. -/
theorem not_isBreak_of_mem_pieces (isBreak : Char → Bool) (cs : List Char) :
    ∀ l ∈ pieces isBreak cs, ∀ c ∈ l, isBreak c = false := by
  induction cs with
  | nil => simp [pieces]
  | cons c cs ih =>
    rw [pieces]
    split
    · simpa using ih
    · rename_i hc
      split <;> rename_i heq
      · simpa using hc
      · rw [heq] at ih
        simp only [List.mem_cons, forall_eq_or_imp] at ih ⊢
        exact ⟨⟨by simpa using hc, ih.1⟩, ih.2⟩

/-- A text that ends in a break is cut apart from what follows it. -/
theorem pieces_append_break {isBreak : Char → Bool} {b : Char} (hb : isBreak b = true)
    (as bs : List Char) :
    pieces isBreak (as ++ b :: bs) = pieces isBreak (as ++ [b]) ++ pieces isBreak bs := by
  induction as with
  | nil => simp [pieces, hb]
  | cons a as ih =>
    simp only [List.cons_append, pieces]
    split
    · simp [ih]
    · rw [ih]
      cases h : pieces isBreak (as ++ [b]) with
      | nil =>
        cases as with
        | nil => simp [pieces, hb] at h
        | cons a' as =>
          simp only [List.cons_append, pieces] at h
          split at h
          · simp at h
          · split at h <;> simp at h
      | cons l ls => simp

end Calculator.Text
