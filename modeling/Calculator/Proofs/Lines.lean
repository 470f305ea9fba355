import Calculator.Proofs.Batches

/-!
# Texts made of lines

Lines that are put together are found again. This file says so for the two ways in which
texts come about here: one line after the other, each ended by a line feed
(`streamLines_of_onePerLine`), and one text after another (`fileLines_append`). A text that
is continued must be empty or end in a line feed. It must not end in a carriage return,
which a line feed at the start of the next text would join.

What stands on one line of a file (`OnOneLine`) is more than what stands on one line of a
stream, so that is said apart, of the texts that reports are made of.
-/

namespace Calculator.Text

variable {isBreak : Char → Bool}

/-! ## Pieces -/

/-- Up to its first break, a text is one piece. -/
theorem pieces_append_break_of_unbroken {l : List Char} {b : Char}
    (hl : ∀ c ∈ l, isBreak c = false) (hb : isBreak b = true) (cs : List Char) :
    pieces isBreak (l ++ b :: cs) = l :: pieces isBreak cs := by
  induction l with
  | nil => exact pieces_break hb cs
  | cons c l ih =>
    rw [List.cons_append, pieces, if_neg (by simp [hl c (.head _)]),
      ih fun c' hc' => hl c' (.tail _ hc')]

/-- A text without breaks is one piece, or none if it is empty. -/
theorem pieces_of_unbroken {l : List Char} (hl : ∀ c ∈ l, isBreak c = false) (hne : l ≠ []) :
    pieces isBreak l = [l] := by
  induction l with
  | nil => exact absurd rfl hne
  | cons c l ih =>
    rw [pieces, if_neg (by simp [hl c (.head _)])]
    by_cases hnil : l = []
    · rw [hnil]
      rfl
    · rw [ih (fun c' hc' => hl c' (.tail _ hc')) hnil]

/-- What follows a line feed is unified on its own. -/
theorem exists_unifyBreaks_append (as : List Char) :
    ∃ us, ∀ bs, unifyBreaks (as ++ '\n' :: bs) = us ++ '\n' :: unifyBreaks bs := by
  fun_induction unifyBreaks as with
  | case1 => exact ⟨[], fun _ => rfl⟩
  | case2 cs ih =>
    obtain ⟨us, hus⟩ := ih
    exact ⟨'\n' :: us, fun bs => congrArg ('\n' :: ·) (hus bs)⟩
  | case3 c cs hjoined ih =>
    obtain ⟨us, hus⟩ := ih
    cases cs with
    | nil =>
      -- A carriage return at the end is joined by the line feed.
      by_cases hc : c = '\r'
      · exact ⟨[], fun bs => by rw [hc]; rfl⟩
      · refine ⟨[c], fun bs => ?_⟩
        rw [List.cons_append, unifyBreaks.eq_3 _ _ fun _ hc' => absurd hc' hc, if_neg hc]
        rfl
    | cons c' cs =>
      refine ⟨(if c = '\r' then '\n' else c) :: us, fun bs => ?_⟩
      rw [List.cons_append, unifyBreaks.eq_3, hus bs]
      · rfl
      · intro ds hc hds
        exact hjoined cs hc (by rw [(List.cons.inj hds).1])

/-! ## Lines -/

/-- A text that can be continued: it is empty or ends in a line feed. -/
def Closed (s : String) : Prop := s = "" ∨ ∃ t, s = t ++ "\n"

/-- A text that is continued has its own lines and then those of the other. -/
theorem linesBy_append (hfeed : isBreak '\n' = true) {s : String} (hs : Closed s) (t : String) :
    linesBy isBreak (s ++ t) = linesBy isBreak s ++ linesBy isBreak t := by
  rcases hs with rfl | ⟨s, rfl⟩
  · rw [String.empty_append]
    rfl
  · obtain ⟨us, hus⟩ := exists_unifyBreaks_append s.toList
    have hleft := hus []
    have hright := hus t.toList
    rw [linesBy, linesBy, linesBy, ← List.map_append, String.toList_append, String.toList_append,
      List.append_assoc]
    show (pieces isBreak (unifyBreaks (s.toList ++ '\n' :: t.toList))).map _ =
      (pieces isBreak (unifyBreaks (s.toList ++ ['\n'])) ++ _).map _
    rw [hleft, hright, pieces_append_break hfeed]
    rfl

theorem fileLines_append {s : String} (hs : Closed s) (t : String) :
    fileLines (s ++ t) = fileLines s ++ fileLines t := linesBy_append rfl hs t

theorem streamLines_append {s : String} (hs : Closed s) (t : String) :
    streamLines (s ++ t) = streamLines s ++ streamLines t := linesBy_append rfl hs t

/-- Characters without a break of a file have no carriage return among them. -/
theorem unifyBreaks_of_unbroken {cs : List Char} (h : ∀ c ∈ cs, isFileBreak c = false) :
    unifyBreaks cs = cs :=
  unifyBreaks_of_not_mem fun hmem => absurd (h _ hmem) (by decide)

/-- A text without breaks is one line, unless it is empty. -/
theorem fileLines_of_unbroken {s : String} (h : ∀ c ∈ s.toList, isFileBreak c = false)
    (hne : s ≠ "") : fileLines s = [s] := by
  have hchars : s.toList ≠ [] := fun hnil => hne (String.toList_inj.1 hnil)
  rw [fileLines, linesBy, unifyBreaks_of_unbroken h, pieces_of_unbroken h hchars,
    List.map_singleton, String.ofList_toList]

/-! ## One text on each line -/

/-- Texts, one on each line. -/
def unlines (xs : List String) : String := String.join (xs.map (· ++ "\n"))

theorem unlines_cons (x : String) (xs : List String) :
    unlines (x :: xs) = x ++ "\n" ++ unlines xs := String.join_cons

theorem closed_unlines (xs : List String) : Closed (unlines xs) := by
  induction xs with
  | nil => exact .inl rfl
  | cons x xs ih =>
    rw [unlines_cons]
    rcases ih with hnil | ⟨t, ht⟩
    · exact .inr ⟨x, by rw [hnil, String.append_empty]⟩
    · exact .inr ⟨x ++ "\n" ++ t, by rw [ht, ← String.append_assoc]⟩

theorem unlines_concat (xs : List String) (x : String) :
    unlines (xs ++ [x]) = unlines xs ++ (x ++ "\n") := by
  rw [unlines, List.map_append, String.join_append, ← unlines]
  exact congrArg (unlines xs ++ ·) (String.join_cons.trans String.append_empty)

/-- A text has one of the texts on each line; the last line may be without its line feed. -/
def OnePerLine (xs : List String) (text : String) : Prop :=
  text = unlines xs ∨ text ++ "\n" = unlines xs

/-- Further texts can be put on lines after others. -/
theorem onePerLine_append (xs : List String) {ys : List String} {text : String}
    (h : OnePerLine ys text) : OnePerLine (xs ++ ys) (unlines xs ++ text) := by
  have hunlines : unlines (xs ++ ys) = unlines xs ++ unlines ys := by
    rw [unlines, List.map_append, String.join_append]
    rfl
  rw [OnePerLine, hunlines, String.append_assoc]
  exact h.imp (congrArg _) (congrArg _)

/-- A text without line feeds and carriage returns. -/
def Unbroken (s : String) : Prop := '\n' ∉ s.toList ∧ '\r' ∉ s.toList

theorem Unbroken.isStreamBreak {s : String} (h : Unbroken s) :
    ∀ c ∈ s.toList, isStreamBreak c = false :=
  fun _ hc => beq_eq_false_iff_ne.2 fun hfeed => h.1 (hfeed ▸ hc)

/-- An unbroken text is one line of a stream, with or without a line feed. -/
theorem streamLines_feed {s : String} (h : Unbroken s) : streamLines (s ++ "\n") = [s] := by
  have hreturn : '\r' ∉ s.toList ++ ['\n'] := by simpa using h.2
  rw [streamLines, linesBy, String.toList_append]
  show (pieces _ (unifyBreaks (s.toList ++ ['\n']))).map _ = _
  rw [unifyBreaks_of_not_mem hreturn, pieces_append_break_of_unbroken h.isStreamBreak rfl,
    pieces, List.map_singleton, String.ofList_toList]

theorem streamLines_of_unbroken {s : String} (h : Unbroken s) (hne : s ≠ "") :
    streamLines s = [s] := by
  have hchars : s.toList ≠ [] := fun hnil => hne (String.toList_inj.1 hnil)
  rw [streamLines, linesBy, unifyBreaks_of_not_mem h.2,
    pieces_of_unbroken h.isStreamBreak hchars, List.map_singleton, String.ofList_toList]

theorem streamLines_unlines {xs : List String} (h : ∀ x ∈ xs, Unbroken x) :
    streamLines (unlines xs) = xs := by
  induction xs with
  | nil => rfl
  | cons x xs ih =>
    rw [unlines_cons, streamLines_append (.inr ⟨x, rfl⟩), streamLines_feed (h x (.head _)),
      ih fun x' hx' => h x' (.tail _ hx')]
    rfl

/-- The lines of a text with one text on each line are these texts. -/
theorem streamLines_of_onePerLine {xs : List String} {text : String}
    (hunbroken : ∀ x ∈ xs, Unbroken x) (hne : ∀ x ∈ xs, x ≠ "") (htext : OnePerLine xs text) :
    streamLines text = xs := by
  rcases htext with rfl | htext
  · exact streamLines_unlines hunbroken
  · rcases List.eq_nil_or_concat xs with rfl | ⟨init, last, hxs⟩
    · exact absurd (congrArg String.toList htext) (by simp [unlines])
    · -- The last line is a text of its own.
      rw [List.concat_eq_append] at hxs
      subst hxs
      have hlast : last ∈ init ++ [last] := List.mem_append_right _ (.head _)
      have hinit : ∀ x ∈ init, Unbroken x := fun x hx => hunbroken x (List.mem_append_left _ hx)
      rw [unlines_concat, ← String.append_assoc, String.append_left_inj] at htext
      rw [htext, streamLines_append (closed_unlines init), streamLines_unlines hinit,
        streamLines_of_unbroken (hunbroken last hlast) (hne last hlast)]

/-! ## Texts on one line of a file -/

/-- There is no break of a file in a text. -/
def OnOneLine (s : String) : Prop := ∀ c ∈ s.toList, isFileBreak c = false

instance : DecidablePred OnOneLine := fun s => List.decidableBAll _ s.toList

theorem onOneLine_append {s t : String} (hs : OnOneLine s) (ht : OnOneLine t) :
    OnOneLine (s ++ t) := by
  intro c hc
  rw [String.toList_append] at hc
  exact (List.mem_append.1 hc).elim (hs c) (ht c)

theorem onOneLine_ofList {cs : List Char} (h : ∀ c ∈ cs, isFileBreak c = false) :
    OnOneLine (String.ofList cs) := by
  intro c hc
  rw [String.toList_ofList] at hc
  exact h c hc

/-- Breaks are blanks. -/
theorem isFileBreak_of_not_blank {c : Char} (h : isBlank c = false) : isFileBreak c = false := by
  simp only [isBlank, Bool.or_eq_false_iff, Bool.and_eq_false_iff, decide_eq_false_iff_not,
    beq_eq_false_iff_ne] at h
  simp only [isFileBreak, Bool.or_eq_false_iff, Bool.and_eq_false_iff, decide_eq_false_iff_not,
    beq_eq_false_iff_ne]
  omega

/-- Texts on one line each are found again as the lines of a file. -/
theorem fileLines_unlines {xs : List String} (h : ∀ x ∈ xs, OnOneLine x) :
    fileLines (unlines xs) = xs := by
  induction xs with
  | nil => rfl
  | cons x xs ih =>
    have hfeed : fileLines (x ++ "\n") = [x] := by
      have hx := h x (.head _)
      have hbreaks : unifyBreaks (x.toList ++ ['\n']) = x.toList ++ ['\n'] := by
        refine unifyBreaks_of_not_mem fun hmem => ?_
        rcases List.mem_append.1 hmem with hmem | hmem
        · exact absurd (hx _ hmem) (by decide)
        · exact absurd (List.mem_singleton.1 hmem) (by decide)
      rw [fileLines, linesBy, String.toList_append]
      show (pieces _ (unifyBreaks (x.toList ++ ['\n']))).map _ = _
      rw [hbreaks, pieces_append_break_of_unbroken hx rfl, pieces, List.map_singleton,
        String.ofList_toList]
    rw [unlines_cons, fileLines_append (.inr ⟨x, rfl⟩), hfeed, ih fun x' hx' => h x' (.tail _ hx')]
    rfl

end Calculator.Text
