import Calculator.Proofs.Stops
import Calculator.Proofs.Tokens

/-!
# Where tokens stand

The tokens of a text together with the offsets at which they start (`placed`). Of a cursor
these are the tokens that are left to be read. A reader that moves on passes blanks, which
are no tokens, or else one whole token: a mark, two stars, a name or a number. So each of
its moves takes the first token away and leaves the others where they are.

Two stars are the one place where this needs a thought: a chain of factors takes a star
for its operator without a look at what is next to it. It never stands before two of them,
as a factor would have taken them for a power (`next?_of_factor`).
-/

namespace Calculator

/-- A mark is a character that is neither a blank nor of a number or a name. -/
def Text.IsMark (a : Char) : Prop := isBlank a = false ∧ a.isAlphanum = false ∧ a ≠ '.'

instance (a : Char) : Decidable (Text.IsMark a) :=
  inferInstanceAs (Decidable (_ ∧ _ ∧ _))

theorem Operator.isMark_of_additive? (a : Char) (o : Operator) (h : additive? a = some o) :
    Text.IsMark a := by
  rw [← additive?_eq_some h]
  cases o <;> decide

theorem Operator.isMark_of_multiplicative? (a : Char) (o : Operator)
    (h : multiplicative? a = some o) : Text.IsMark a := by
  rw [← multiplicative?_eq_some h]
  cases o <;> decide

/-- The tokens of a text that starts at an offset, each with the offset at which it starts. -/
def placed (k : Nat) : List Char → List (Nat × Token)
  | [] => []
  | a :: cs =>
    if Text.isBlank a then placed (k + 1) cs
    else (k, (cutToken a cs).1) :: placed (k + (cutToken a cs).1.chars.length) (cutToken a cs).2
  termination_by cs => cs.length
  decreasing_by
  · exact Nat.lt_succ_self _
  · exact Nat.lt_succ_of_le (length_cutToken_le a cs)

theorem placed_nil (k : Nat) : placed k [] = [] := by rw [placed.eq_def]

theorem placed_cons_of_isBlank {a : Char} (ha : Text.isBlank a = true) (k : Nat)
    (cs : List Char) : placed k (a :: cs) = placed (k + 1) cs := by
  rw [placed.eq_def]
  exact if_pos ha

theorem placed_cons {a : Char} (ha : Text.isBlank a = false) (k : Nat) (cs : List Char) :
    placed k (a :: cs) =
      (k, (cutToken a cs).1) ::
        placed (k + (cutToken a cs).1.chars.length) (cutToken a cs).2 := by
  rw [placed.eq_def]
  exact if_neg (by rw [ha]; exact Bool.false_ne_true)

/-- Without their offsets these are the tokens of the text. -/
theorem map_snd_placed (k : Nat) (cs : List Char) : (placed k cs).map Prod.snd = tokens cs := by
  induction k, cs using placed.induct with
  | case1 k => rw [placed_nil, tokens_nil, List.map_nil]
  | case2 k a cs ha ih => rw [placed_cons_of_isBlank ha, tokens_cons_of_isBlank ha, ih]
  | case3 k a cs ha ih =>
    have ha := Bool.eq_false_iff.2 ha
    rw [placed_cons ha, tokens_cons ha, List.map_cons, ih]

namespace Cursor

/-- The tokens that are left, with their offsets. -/
def placed (c : Cursor) : List (Nat × Token) := Calculator.placed c.offset c.rest

/-- The next token, if there is one. -/
def next? (c : Cursor) : Option Token := c.placed.head?.map Prod.snd

variable {c c' : Cursor}

/-- Blanks are no tokens. -/
theorem placed_pastBlanks (c : Cursor) : c.pastBlanks.placed = c.placed := by
  obtain ⟨k, r⟩ := c
  induction r generalizing k with
  | nil => rfl
  | cons a r ih =>
    cases ha : Text.isBlank a with
    | true =>
      have hpast := pastBlanks_append k (b := [a]) (List.forall_mem_singleton.2 ha) r
      rw [List.singleton_append, List.length_singleton] at hpast
      rw [hpast, ih, placed, placed, placed_cons_of_isBlank ha]
    | false =>
      rw [pastBlanks_eq_self fun x hx => by rwa [← Option.some.inj hx]]

theorem next?_pastBlanks (c : Cursor) : c.pastBlanks.next? = c.next? := by
  rw [next?, placed_pastBlanks, next?]

/-- The cursor `c` is at the start of a token, and `c'` is past it. -/
structure Passes (c : Cursor) (token : Token) (c' : Cursor) : Prop where
  reaches : c.Reaches token.chars c'
  placed : c.placed = (c.offset, token) :: c'.placed

/-- The text of the token at the cursor is passed. -/
theorem passes_of_cutToken {a : Char} {cs : List Char} {token : Token} (hc : c.rest = a :: cs)
    (ha : Text.isBlank a = false) (hcut : cutToken a cs = (token, c'.rest))
    (hpast : c.Reaches token.chars c') : c.Passes token c' where
  reaches := hpast
  placed := by
    rw [placed, hc, placed_cons ha, hcut, placed, hpast.offset]

/-- A cursor at the end, but for blanks, has no tokens left, and otherwise the token that
    begins past the blanks. -/
theorem placed_of_pastBlanks (c : Cursor) :
    (c.pastBlanks.rest = [] ∧ c.placed = []) ∨
      ∃ a cs left, c.pastBlanks.rest = a :: cs ∧
        c.placed = (c.pastBlanks.offset, (cutToken a cs).1) :: left := by
  rw [← placed_pastBlanks]
  cases hrest : c.pastBlanks.rest with
  | nil => exact .inl ⟨rfl, by rw [placed, hrest, placed_nil]⟩
  | cons a cs =>
    have ha : Text.isBlank a = false := isBlank_of_head?_pastBlanks (by rw [hrest]; rfl)
    have htoken : c.pastBlanks.Reaches (cutToken a cs).1.chars ⟨_, (cutToken a cs).2⟩ :=
      ⟨hrest.trans (chars_append_cutToken a cs).symm, rfl⟩
    exact .inr ⟨a, cs, _, rfl, (passes_of_cutToken hrest ha rfl htoken).placed⟩

/-- The first character past the blanks is that of the next token. -/
theorem head?_pastBlanks (c : Cursor) :
    c.pastBlanks.rest.head? = c.next?.bind fun token => token.chars.head? := by
  rcases c.placed_of_pastBlanks with ⟨hrest, hplaced⟩ | ⟨a, cs, r, hrest, hplaced⟩
  · rw [next?, hrest, hplaced]
    rfl
  · rw [next?, hrest, hplaced]
    exact (head?_chars_cutToken a cs).symm

/-- Past the blanks the next token starts, or else the text ends. -/
theorem offset_pastBlanks (c : Cursor) :
    c.pastBlanks.offset = (c.placed.head?.map Prod.fst).getD c.finish := by
  rcases c.placed_of_pastBlanks with ⟨hrest, hplaced⟩ | ⟨a, cs, r, hrest, hplaced⟩
  · rw [hplaced, ← c.finish_forward (c.rest.takeWhile Text.isBlank).length]
    show _ = c.pastBlanks.offset + c.pastBlanks.rest.length
    rw [hrest]
    rfl
  · rw [hplaced]
    rfl

/-! ## Tokens that are passed -/

/-- A mark is by itself a token, if it is not the first of two stars. -/
theorem passes_mark {a : Char} (hc : c.rest.head? = some a) (ha : Text.IsMark a)
    (hstars : a = '*' → c.next? ≠ some .stars) : c.Passes (.sign a) (c.forward 1) := by
  obtain ⟨cs, hcs⟩ := List.head?_eq_some_iff.1 hc
  have hpast := reaches_forward_one hc
  have hrest : (c.forward 1).rest = cs := (List.cons.inj (hpast.rest.symm.trans hcs)).2
  refine passes_of_cutToken hcs ha.1 ?_ hpast
  rw [hrest]
  refine cutToken_sign ha.2 fun hstar hhead => hstars hstar ?_
  rw [next?, placed, hcs, placed_cons ha.1, hstar, cutToken_stars hhead]
  rfl

theorem passes_stars (h : c.rest[0]? = some '*' ∧ c.rest[1]? = some '*') :
    c.Passes .stars (c.forward 2) := by
  obtain ⟨k, rest⟩ := c
  obtain ⟨cs, rfl⟩ : ∃ cs, rest = '*' :: '*' :: cs := by
    obtain ⟨cs, rfl⟩ := List.head?_eq_some_iff.1 (List.head?_eq_getElem?.trans h.1)
    obtain ⟨cs, rfl⟩ := List.head?_eq_some_iff.1 (List.head?_eq_getElem?.trans h.2)
    exact ⟨cs, rfl⟩
  exact passes_of_cutToken rfl (by decide) (cutToken_stars rfl) ⟨rfl, rfl⟩

/-- Two stars side by side are the next token, if there are no blanks before them. -/
theorem next?_eq_stars_iff (hc : c.pastBlanks = c) :
    c.next? = some .stars ↔ c.rest[0]? = some '*' ∧ c.rest[1]? = some '*' := by
  refine ⟨fun h => ?_, fun h => ?_⟩
  · rcases c.placed_of_pastBlanks with ⟨_, hplaced⟩ | ⟨a, cs, left, hrest, hplaced⟩
    · rw [next?, hplaced] at h
      exact absurd h nofun
    · rw [next?, hplaced] at h
      have htext := chars_append_cutToken a cs
      rw [show (cutToken a cs).1 = .stars from Option.some.inj h, ← hrest, hc] at htext
      rw [← htext]
      exact ⟨rfl, rfl⟩
  · rw [next?, (passes_stars h).placed]
    rfl

/-- At a letter, letters and digits are passed. -/
theorem passes_name {a : Char} (hc : c.rest.head? = some a) (ha : a.isAlpha = true) :
    c.Passes (.name (c.rest.takeWhile Char.isAlphanum))
      (c.forward (c.rest.takeWhile Char.isAlphanum).length) := by
  obtain ⟨cs, hcs⟩ := List.head?_eq_some_iff.1 hc
  have halnum := Text.isAlphanum_of_isAlpha ha
  refine passes_of_cutToken hcs (Text.isBlank_eq_false_of_isAlphanum halnum) ?_
    (c.reaches_takeWhile _)
  rw [rest_forward_takeWhile, hcs, List.takeWhile_cons_of_pos halnum,
    List.dropWhile_cons_of_pos halnum, cutToken_name ha]

end Cursor

/-- Where a level is read: a primary only at a character that is no blank, a call only at a
    letter. -/
def Level.Ready : Level → Cursor → Prop
  | expression, _ | term, _ | factor, _ => True
  | primary, c => ∃ a, c.rest.head? = some a ∧ Text.isBlank a = false
  | call, c => ∃ a, c.rest.head? = some a ∧ a.isAlpha = true

/-- A primary is read past blanks, unless the text ends there. -/
theorem Cursor.ready_pastBlanks {c : Cursor} (h : c.pastBlanks.rest ≠ []) :
    Level.primary.Ready c.pastBlanks := by
  obtain ⟨a, cs, hcs⟩ := List.exists_cons_of_ne_nil h
  have ha : c.pastBlanks.rest.head? = some a := by rw [hcs]; rfl
  exact ⟨a, ha, Cursor.isBlank_of_head?_pastBlanks ha⟩

theorem Level.Ready.pastBlanks_eq {c : Cursor} (h : Level.primary.Ready c) : c.pastBlanks = c := by
  obtain ⟨a, ha, hblank⟩ := h
  refine Cursor.pastBlanks_eq_self fun b hb => ?_
  rwa [← Option.some.inj (ha.symm.trans hb)]

namespace Reader

/-- At a digit or a point a number is passed, and what is read is in its characters. -/
theorem passes_number {c : Cursor} {a : Char} (hc : c.rest.head? = some a)
    (ha : (a.isDigit || a = '.') = true) :
    ∃ w c', c.Passes (.number w) c' ∧ cutNumber c.rest = (.number w, c'.rest) ∧
      number.run c = (literal c.offset (w.takeWhile Char.isDigit)
        (w.dropWhile Char.isDigit).tail).run c' := by
  obtain ⟨cs, hcs⟩ := List.head?_eq_some_iff.1 hc
  have hblank : Text.isBlank a = false := by
    rcases Bool.or_eq_true_iff.1 ha with ha | ha
    · exact Text.isBlank_eq_false_of_isAlphanum (Text.isAlphanum_of_isDigit ha)
    · rw [of_decide_eq_true ha]
      decide
  have hpasses {w : List Char} {c' : Cursor} (h : cutNumber c.rest = (.number w, c'.rest))
      (hw : c.Reaches w c') : c.Passes (.number w) c' := by
    rw [hcs] at h
    exact Cursor.passes_of_cutToken hcs hblank ((cutToken_number ha cs).trans h) hw
  have hdigits : ∀ d ∈ c.rest.takeWhile Char.isDigit, d.isDigit = true :=
    List.all_eq_true.1 List.all_takeWhile
  have hwhole := c.reaches_takeWhile Char.isDigit
  have hrest := c.rest_forward_takeWhile Char.isDigit
  rw [run_number]
  dsimp only
  split
  · rename_i hpoint
    have hpointed := hwhole.trans (Cursor.reaches_forward_one hpoint)
    have htail := (Cursor.reaches_forward_one hpoint).rest
    generalize (c.forward (c.rest.takeWhile Char.isDigit).length).forward 1 = c₁ at *
    have hfraction := hpointed.trans (c₁.reaches_takeWhile Char.isDigit)
    have hcut : cutNumber c.rest =
        (.number (c.rest.takeWhile Char.isDigit ++ ['.'] ++ c₁.rest.takeWhile Char.isDigit),
          (c₁.forward (c₁.rest.takeWhile Char.isDigit).length).rest) := by
      rw [cutNumber, ← hrest, if_pos hpoint, htail, List.append_assoc, c₁.rest_forward_takeWhile]
      rfl
    refine ⟨_, _, hpasses hcut hfraction, hcut, ?_⟩
    · have hhead (r : List Char) (d : Char) (hd : ('.' :: r).head? = some d) :
          d.isDigit = false := by
        rw [← Option.some.inj hd]
        rfl
      rw [List.append_assoc, List.singleton_append,
        Text.takeWhile_append_of_head? hdigits (hhead _),
        Text.dropWhile_append_of_head? hdigits (hhead _)]
      rfl
  · rename_i hpoint
    have hcut : cutNumber c.rest = (.number (c.rest.takeWhile Char.isDigit),
        (c.forward (c.rest.takeWhile Char.isDigit).length).rest) := by
      rw [cutNumber, ← hrest, if_neg hpoint]
    refine ⟨_, _, hpasses hcut hwhole, hcut, ?_⟩
    · have hend (d : Char) (hd : ([] : List Char).head? = some d) : d.isDigit = false := by
        cases hd
      have hall := Text.takeWhile_append_of_head? hdigits hend
      have hnone := Text.dropWhile_append_of_head? hdigits hend
      rw [List.append_nil] at hall hnone
      rw [hall, hnone]
      rfl

/-- A number without digits is a point that is not followed by a digit. -/
theorem point_of_cutNumber {a : Char} {cs w r : List Char} (hc : cs.head? = some a)
    (ha : (a.isDigit || a = '.') = true) (hcut : cutNumber cs = (.number w, r))
    (hwhole : w.takeWhile Char.isDigit = []) (hfraction : (w.dropWhile Char.isDigit).tail = []) :
    cs.head? = some '.' ∧ ∀ d, cs[1]? = some d → d.isDigit = false := by
  obtain ⟨cs, rfl⟩ := List.head?_eq_some_iff.1 hc
  cases hdigit : a.isDigit with
  | true =>
    -- The number begins with the digit.
    have hhead := head?_chars_cutToken a cs
    rw [cutToken_number ha, hcut] at hhead
    obtain ⟨w, rfl⟩ := List.head?_eq_some_iff.1 hhead
    rw [List.takeWhile_cons_of_pos hdigit] at hwhole
    exact absurd hwhole (List.cons_ne_nil _ _)
  | false =>
    rw [hdigit, Bool.false_or, decide_eq_true_eq] at ha
    obtain rfl := ha
    obtain rfl : '.' :: cs.takeWhile Char.isDigit = w := Token.number.inj (Prod.mk.inj hcut).1
    refine ⟨rfl, fun d hd => Bool.eq_false_iff.2 fun hdigit => ?_⟩
    obtain ⟨r, rfl⟩ := List.head?_eq_some_iff.1 (List.head?_eq_getElem?.trans hd)
    have hsome : (d :: r).takeWhile Char.isDigit = [] := hfraction
    rw [List.takeWhile_cons_of_pos hdigit] at hsome
    exact absurd hsome (List.cons_ne_nil _ _)

/-- A factor that is read is not followed by two stars. They would be the sign of a power. -/
theorem next?_of_factor (m : Elementary) (frames : Nat) (c : Cursor) :
    Ends ((read m .factor frames).run c) (fun _ c' => c'.next? ≠ some .stars)
      fun _ _ => True := by
  refine (done_factor m frames c).imp (fun _ c' hdone hnext => ?_) fun _ _ => id
  have hstars := (Cursor.next?_eq_stars_iff hdone.pastBlanks_eq).1 hnext
  exact hdone.signs "**" (by decide) (Text.stars_prefix_iff.2 hstars)

/-- If a star is an operator of the table, two stars do not come after what is read. -/
def Clears (operator? : Char → Option Operator) (r : Reader Binary64) : Prop :=
  operator? '*' ≠ none → ∀ c,
    Ends (r.run c) (fun _ c' => c'.next? ≠ some .stars) fun _ _ => True

theorem clears_term (m : Elementary) (frames : Nat) :
    Clears Operator.additive? (read m .term frames) := fun hstar => absurd rfl hstar

theorem clears_factor (m : Elementary) (frames : Nat) :
    Clears Operator.multiplicative? (read m .factor frames) := fun _ => next?_of_factor m frames

theorem Clears.link {operator? : Char → Option Operator} {operand : Reader Binary64}
    (h : Clears operator? operand) (value : Binary64) (start : Nat) (operator : Operator) :
    Clears operator? (chainLink operand value start operator) :=
  fun hstar c => (h hstar c).bind fun _ _ hc' => ends_valueAt (fun _ _ => hc') fun _ _ => trivial

end Reader

end Calculator
