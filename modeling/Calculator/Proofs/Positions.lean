import Calculator.Proofs.Finiteness
import Calculator.Proofs.Places
import Calculator.Proofs.Soundness

/-!
# What failures point at

A failure gives a place in the text, and what it is about stands there: an operator at
which a computation failed, the name of a function, a number, or a character that cannot
be right. For each fault it is said what that is (`Fault.PointsAt`).

Faults are found at the cursor, or at a place that was kept while an operand or an argument
was read. The cursor is always between tokens of the text (`Within`), so at such a place a
token begins, and the values met are finite, so no other fault can come up there.
-/

namespace Calculator

open Grammar

/-- A token of the text starts at an offset. -/
def TokenAt (s : List Char) (p : Nat) (t : Token) : Prop :=
  t.chars <+: s.drop p ∧ (p, t) ∈ placed 0 s

/-- The token at an offset is the name. -/
def NamedAt (s : List Char) (p : Nat) (name : String) : Prop :=
  ∃ n : Name, name = String.ofList n.chars ∧ TokenAt s p (.name n.chars)

/-- At an offset the text ends, or there is a character that is no blank, and not the one
    that is missing. -/
def Lacks (s : List Char) (p : Nat) (missing : Char) : Prop :=
  p = s.length ∨ ∃ a, s[p]? = some a ∧ Text.isBlank a = false ∧ a ≠ missing

/-- The sign of a power is at an offset. -/
def PowerSignAt (s : List Char) (p : Nat) : Prop :=
  s[p]? = some '^' ∨ (s[p]? = some '*' ∧ s[p + 1]? = some '*')

/-- What a fault is about is found at an offset. -/
def Fault.PointsAt (m : Elementary) (s : List Char) (p : Nat) (fault : Fault) : Prop :=
  match fault with
  | unexpectedEnd => p = s.length
  | unexpectedCharacter _ => ∃ a, s[p]? = some a ∧ Text.isBlank a = false ∧
      fault.help? = some ("Unexpected character '" ++ String.singleton a ++ "'.")
  | unclosed _ => Lacks s p ')'
  | uncalled name => Lacks s p '(' ∧
      fault.help? = some ("Function '" ++ name ++ "' must be called as " ++ name ++ "(argument).") ∧
      ∃ (q : Nat) (b : Blanks), NamedAt s q name ∧ name.toList ++ b.1 <+: s.drop q ∧
        p = q + (name.toList ++ b.1).length
  | malformedNumber => s[p]? = some '.' ∧ ∀ a, s[p + 1]? = some a → a.isDigit = false
  | divisionByZero => s[p]? = some '/'
  | moduloByZero => s[p]? = some '%'
  | domain _ name _ => NamedAt s p name ∧
      (m.Regular → ∃ g ∈ [Function.sqrt, .ln, .log10], name = g.name)
  | unknownFunction name _ => NamedAt s p name
  | undefinedPower _ _ => PowerSignAt s p
  | overflow => (∃ w, TokenAt s p (.number w)) ∨
      (∃ a ∈ ['+', '-', '*', '/', '^'], s[p]? = some a) ∨ NamedAt s p Function.exp.name
  | nestingTooDeep => True

namespace Reader

/-- The cursor is in the text, and the tokens that are left to it are tokens of the text. -/
structure Within (s : List Char) (c : Cursor) : Prop where
  reaches : ∃ w, (Cursor.mk 0 s).Reaches w c
  placed : c.placed <:+ placed 0 s

/-- A fault is found in the text, where what it is about stands. -/
def Sited (m : Elementary) (s : List Char) (e : Located) : Prop :=
  ∃ p : Nat, e.position = p ∧ p ≤ s.length ∧ e.fault.PointsAt m s p

/-- A finite value is read and the cursor is between tokens, or there is a fault where what
    it is about stands. -/
abbrev Locates (m : Elementary) (s : List Char) (x : Outcome Binary64) : Prop :=
  Ends x (fun x c => x.isFinite = true ∧ Within s c) fun e _ => Sited m s e

variable {m : Elementary} {frames : Nat} {s : List Char} {c c' : Cursor}

namespace Within

theorem offset_le (h : Within s c) : c.offset ≤ s.length := by
  obtain ⟨w, hw⟩ := h.reaches
  have hfinish : c.offset + c.rest.length = 0 + s.length := hw.finish_eq
  omega

/-- The characters from the cursor on are those of the text. -/
theorem getElem?_rest (h : Within s c) (k : Nat) : s[c.offset + k]? = c.rest[k]? := by
  obtain ⟨w, hw⟩ := h.reaches
  have hchars : s = w ++ c.rest := hw.rest
  have hoffset : c.offset = w.length := hw.offset.trans (Nat.zero_add _)
  rw [hchars, hoffset, List.getElem?_append_right (Nat.le_add_right _ _), Nat.add_sub_cancel_left]

theorem drop_offset (h : Within s c) : s.drop c.offset = c.rest := by
  refine List.ext_getElem? fun k => ?_
  rw [List.getElem?_drop, h.getElem?_rest]

theorem getElem?_offset (h : Within s c) : s[c.offset]? = c.rest.head? := by
  rw [List.head?_eq_getElem?]
  exact h.getElem?_rest 0

/-- At the end of what is left is the end of the text. -/
theorem offset_eq (h : Within s c) (hc : c.rest = []) : c.offset = s.length := by
  have hnone := h.getElem?_offset
  rw [hc, List.head?_nil, List.getElem?_eq_none_iff] at hnone
  exact Nat.le_antisymm h.offset_le hnone

theorem pastBlanks (h : Within s c) : Within s c.pastBlanks where
  reaches := by
    obtain ⟨w, hw⟩ := h.reaches
    exact ⟨_, hw.trans c.reaches_pastBlanks⟩
  placed := by
    rw [c.placed_pastBlanks]
    exact h.placed

/-- Passing a token, which is one of the text. -/
theorem pass (h : Within s c) {t : Token} (hc : c.Passes t c') :
    TokenAt s c.offset t ∧ Within s c' := by
  have hplaced := h.placed
  rw [hc.placed] at hplaced
  obtain ⟨w, hw⟩ := h.reaches
  refine ⟨⟨?_, hplaced.subset List.mem_cons_self⟩, ⟨_, hw.trans hc.reaches⟩,
    (List.suffix_cons _ _).trans hplaced⟩
  rw [h.drop_offset, hc.reaches.rest]
  exact List.prefix_append _ _

/-- Past a mark. -/
theorem forward_one (h : Within s c) {a : Char} (hc : c.rest.head? = some a)
    (ha : Text.IsMark a) (hstars : a = '*' → c.next? ≠ some .stars) : Within s (c.forward 1) :=
  (h.pass (Cursor.passes_mark hc ha hstars)).2

/-- Where another character was expected past the blanks, it is missing. -/
theorem lacks (h : Within s c) {a : Char} (hc : c.pastBlanks.rest.head? ≠ some a) :
    Lacks s c.pastBlanks.offset a := by
  cases hnext : c.pastBlanks.rest.head? with
  | none => exact .inl (h.pastBlanks.offset_eq (List.head?_eq_none_iff.1 hnext))
  | some b =>
    refine .inr ⟨b, h.pastBlanks.getElem?_offset.trans hnext, ?_, fun hb => hc (hb ▸ hnext)⟩
    exact Cursor.isBlank_of_head?_pastBlanks hnext

end Within

/-! ## Single faults -/

/-- A fault at the cursor. -/
theorem sited_at (h : Within s c) {fault : Fault} (hfault : fault.PointsAt m s c.offset) :
    Sited m s ⟨fault, c.offset⟩ := ⟨c.offset, rfl, h.offset_le, hfault⟩

theorem sited_unexpected (h : Within s c) {a : Char} (hc : c.rest.head? = some a)
    (ha : Text.isBlank a = false) : Sited m s ⟨.unexpectedCharacter c.rest.head?, c.offset⟩ :=
  sited_at h ⟨a, h.getElem?_offset.trans hc, ha, by rw [hc]; rfl⟩

theorem ends_expect_within (h : Within s c) {a : Char} (ha : Text.IsMark a) (hstar : a ≠ '*')
    {fault : Fault} (hfault : Lacks s c.pastBlanks.offset a →
      fault.PointsAt m s c.pastBlanks.offset) :
    Ends ((expect a fault).run c) (fun _ c' => Within s c') fun e _ => Sited m s e := by
  rw [run_expect]
  split
  · rename_i hc
    exact h.pastBlanks.forward_one hc ha fun h => absurd h hstar
  · rename_i hc
    exact sited_at h.pastBlanks (hfault (h.lacks hc))

theorem ends_close_within (h : Within s c) (afterArgument : Bool) :
    Ends ((expect ')' (.unclosed afterArgument)).run c) (fun _ c' => Within s c')
      fun e _ => Sited m s e :=
  ends_expect_within h (by decide) (by decide) id

theorem ends_powerSign_within (h : Within s c) :
    Ends (powerSign.run c)
      (fun found c' => Within s c' ∧ (found = true → PowerSignAt s c.offset))
      fun e _ => Sited m s e := by
  rw [run_powerSign]
  split
  · rename_i hcaret
    exact ⟨h.forward_one hcaret (by decide) nofun, fun _ => .inl (h.getElem?_offset.trans hcaret)⟩
  · split
    · rename_i hstars
      refine ⟨(h.pass (Cursor.passes_stars hstars)).2, fun _ => .inr ?_⟩
      exact ⟨(h.getElem?_rest 0).trans hstars.1, (h.getElem?_rest 1).trans hstars.2⟩
    · exact ⟨h, nofun⟩

/-- A power fails at its sign. -/
theorem sited_power (h : Within s c) (hc : PowerSignAt s c.offset) {x y : Binary64} {fault : Fault}
    (hfault : power m x y = .error fault) : Sited m s ⟨fault, c.offset⟩ := by
  refine sited_at h ?_
  rcases eq_of_power_error hfault with rfl | rfl
  · exact hc
  · refine .inr (.inl ?_)
    rcases hc with hcaret | ⟨hstar, _⟩
    · exact ⟨'^', by decide, hcaret⟩
    · exact ⟨'*', by decide, hstar⟩

/-- An operator fails at its own character. -/
theorem sited_apply (h : Within s c) {o : Operator} (hc : c.rest.head? = some o.char)
    {x y : Binary64} (hx : x.isFinite = true) (hy : y.isFinite = true) {fault : Fault}
    (hfault : o.apply x y = .error fault) : Sited m s ⟨fault, c.offset⟩ := by
  have hat := h.getElem?_offset.trans hc
  refine sited_at h ?_
  rcases fault_of_apply hx hy hfault with ⟨rfl, rfl⟩ | ⟨rfl, rfl⟩ | ⟨ho, rfl⟩
  · exact hat
  · exact hat
  · refine .inr (.inl ⟨o.char, ?_, hat⟩)
    cases o with
    | mod => exact absurd rfl ho
    | add | sub | mul | div => decide

/-- A call fails at its name. -/
theorem sited_applyNamed (h : Within s c) {name : String} (hc : NamedAt s c.offset name)
    {x : Binary64} (hx : x.isFinite = true) {fault : Fault}
    (hfault : applyNamed m name x = .error fault) : Sited m s ⟨fault, c.offset⟩ := by
  refine sited_at h ?_
  rcases fault_of_applyNamed hx hfault with rfl | ⟨reason, rfl, hregular⟩ | ⟨rfl, rfl⟩
  · exact hc
  · exact ⟨hc, hregular⟩
  · exact .inr (.inr hc)

/-- A literal without digits fails as one, and its fault is otherwise that of its value. -/
theorem locates_literal (h : Within s c) (h' : Within s c') {w : List Char}
    (hc : TokenAt s c.offset (.number w)) {whole fraction : List Char}
    (hpoint : whole = [] → fraction = [] → Fault.malformedNumber.PointsAt m s c.offset) :
    Locates m s ((literal c.offset whole fraction).run c') := by
  rw [literal]
  split
  · rename_i hempty
    rw [Bool.and_eq_true, List.isEmpty_iff, List.isEmpty_iff] at hempty
    exact sited_at h (hpoint hempty.1 hempty.2)
  · refine ends_valueAt (fun x hx => ⟨?_, h'⟩) fun fault hfault => ?_
    · exact isFinite_of_checkFinite (Decimal.isNaN_toBinary64 _ _) hx
    · rw [(eq_of_checkFinite_error hfault).2]
      exact sited_at h (.inl ⟨w, hc⟩)

/-- A number that is begun is a point without digits, or its fault is that of its value. -/
theorem locates_number (h : Within s c) {a : Char} (hc : c.rest.head? = some a)
    (ha : (a.isDigit || a = '.') = true) : Locates m s (number.run c) := by
  obtain ⟨w, c', hpass, hcut, hrun⟩ := passes_number hc ha
  obtain ⟨htoken, h'⟩ := h.pass hpass
  rw [hrun]
  refine locates_literal h h' htoken fun hwhole hfraction => ?_
  obtain ⟨hpoint, hnext⟩ := point_of_cutNumber hc ha hcut hwhole hfraction
  exact ⟨h.getElem?_offset.trans hpoint, fun d hd => hnext d ((h.getElem?_rest 1).symm.trans hd)⟩

/-! ## Chains -/

theorem locates_chain {operator? : Char → Option Operator} {operand : Reader Binary64}
    (hp : Progresses operand) (hclears : Clears operator? operand)
    (hmark : ∀ a o, operator? a = some o → Text.IsMark a)
    (hchar : ∀ a o, operator? a = some o → o.char = a)
    (hoperand : ∀ c, Within s c → Locates m s (operand.run c)) (h : Within s c) :
    Locates m s ((chain operator? operand).run c) := by
  have hafter {r : Reader Binary64} (hr : Clears operator? r) (c : Cursor) (x : Binary64)
      (c' : Cursor) (hrun : r.run c = .ok x c') : operator? '*' ≠ none → c'.next? ≠ some .stars :=
    fun hstar => (hr hstar c).value hrun
  refine (ends_chain hp (I := fun x c' => (x.isFinite = true ∧ Within s c') ∧
      (operator? '*' ≠ none → c'.next? ≠ some .stars))
    ((hoperand c h).and_value (hafter hclears c)) ?_).imp ?_ fun _ _ he => he
  · rintro x c₁ o ⟨⟨hx, h₁⟩, hnext⟩ ho
    obtain ⟨a, ha, hao⟩ := Option.bind_eq_some_iff.1 ho
    have hpast : Within s (c₁.pastBlanks.forward 1) := by
      refine h₁.pastBlanks.forward_one ha (hmark a o hao) ?_
      rintro rfl
      rw [c₁.next?_pastBlanks]
      exact hnext (by rw [hao]; exact Option.some_ne_none _)
    refine Ends.and_value ?_ (hafter (hclears.link _ _ _) _)
    refine (hoperand _ hpast).bind fun y c₂ h₂ => ?_
    exact ends_valueAt (fun z hz => ⟨isFinite_of_apply hx h₂.1 hz, h₂.2⟩) fun fault hfault =>
      sited_apply h₁.pastBlanks (ha.trans (congrArg some (hchar a o hao).symm)) hx h₂.1 hfault
  · rintro x c' ⟨c₁, ⟨⟨hx, h₁⟩, _⟩, rfl, _⟩
    exact ⟨hx, h₁.pastBlanks⟩

/-! ## Levels -/

/-- With the given frames, levels give finite values and faults where they belong. -/
def ReadsWithin (m : Elementary) (frames : Nat) (s : List Char) : Prop :=
  ∀ l c, Within s c → l.Ready c → Locates m s ((read m l frames).run c)

section

variable (ih : ReadsWithin m frames s)
include ih

theorem locates_powered (h : Within s c) (hc : Level.primary.Ready c) :
    Locates m s ((powered m frames).run c) := by
  refine (ih .primary c h hc).bind fun base c₁ ⟨hbase, h₁⟩ => ?_
  rw [run_skipBlanks_bind, raised, run_position_bind]
  refine (ends_powerSign_within h₁.pastBlanks).bind fun found c₂ ⟨h₂, hsign⟩ => ?_
  cases found
  · exact ⟨hbase, h₂⟩
  · refine (ih .factor c₂ h₂ trivial).bind fun y c₃ ⟨hy, h₃⟩ => ?_
    exact ends_valueAt (fun z hz => ⟨isFinite_of_power hbase hy hz, h₃⟩) fun fault hfault =>
      sited_power h₁.pastBlanks (hsign rfl) hfault

theorem locates_group (h : Within s c) : Locates m s ((group m frames).run c) :=
  (ih .expression c h trivial).bind fun _ _ ⟨hx, h₁⟩ =>
    (ends_close_within h₁ false).bind fun _ _ h₂ => ⟨hx, h₂⟩

/-- A call is read from the name that was passed. -/
theorem locates_argument {n : Name} (h : Within s c) (hc : c.Passes (.name n.chars) c') :
    Locates m s ((argument m frames c.offset (String.ofList n.chars)).run c') := by
  obtain ⟨htoken, h'⟩ := h.pass hc
  have hnamed : NamedAt s c.offset (String.ofList n.chars) := ⟨n, rfl, htoken⟩
  refine (ends_expect_within h' (by decide) (by decide) fun hlacks => ?_).bind fun _ c₁ h₁ => ?_
  · have hblanks := hc.reaches.trans c'.reaches_pastBlanks
    refine ⟨hlacks, rfl, c.offset, blanksAt c', hnamed, ?_, ?_⟩
    · rw [h.drop_offset, String.toList_ofList, hblanks.rest]
      exact List.prefix_append _ _
    · rw [String.toList_ofList]
      exact hblanks.offset
  · refine (ih .expression c₁ h₁ trivial).bind fun x c₂ ⟨hx, h₂⟩ => ?_
    refine (ends_close_within h₂ true).bind fun _ c₃ h₃ => ?_
    exact ends_valueAt (fun y hy => ⟨isFinite_of_applyNamed hx hy, h₃⟩) fun fault hfault =>
      sited_applyNamed h hnamed hx hfault

end

variable (m) in
/-- Every level gives finite values, and faults where they belong. -/
theorem locates_read (frames : Nat) (s : List Char) : ReadsWithin m frames s := by
  induction frames with
  | zero =>
    intro l c h _
    rw [read_zero, run_tooDeep]
    exact sited_at h trivial
  | succ frames ih =>
    intro l c h hc
    cases l with
    | expression =>
      exact locates_chain (progresses_read m frames .term) (clears_term m frames)
        Operator.isMark_of_additive? (fun _ _ => Operator.additive?_eq_some)
        (fun c h => ih .term c h trivial) h
    | term =>
      exact locates_chain (progresses_read m frames .factor) (clears_factor m frames)
        Operator.isMark_of_multiplicative? (fun _ _ => Operator.multiplicative?_eq_some)
        (fun c h => ih .factor c h trivial) h
    | factor =>
      rw [run_factor]
      split
      · rename_i hend
        exact sited_at h.pastBlanks (h.pastBlanks.offset_eq hend)
      · rename_i hsome
        split
        · rename_i hminus
          have hpast := h.pastBlanks.forward_one hminus (by decide) nofun
          exact (ih .factor _ hpast trivial).bind fun x c' ⟨hx, h'⟩ =>
            ⟨(Binary64.isFinite_neg x).trans hx, h'⟩
        · exact locates_powered ih h.pastBlanks (Cursor.ready_pastBlanks hsome)
    | primary =>
      obtain ⟨a, ha, hblank⟩ := hc
      rw [run_primary, ha]
      dsimp only
      split
      · rename_i hopen
        obtain rfl := hopen
        exact locates_group ih (h.forward_one ha (by decide) nofun)
      · split
        · rename_i hletter
          exact ih .call c h ⟨a, ha, hletter⟩
        · split
          · rename_i hnumber
            exact locates_number h ha hnumber
          · rw [run_unexpected]
            exact sited_unexpected h ha hblank
    | call =>
      obtain ⟨a, ha, hletter⟩ := hc
      obtain ⟨n, hn⟩ := exists_name ha hletter
      have hpass := Cursor.passes_name ha hletter
      rw [run_call]
      rw [← hn] at hpass ⊢
      exact locates_argument ih h hpass

theorem locates_whole (frames : Nat) (h : Within s c) : Locates m s ((whole m frames).run c) := by
  refine (locates_read m frames s .expression c h trivial).bind fun x c₁ ⟨hx, h₁⟩ => ?_
  rw [run_skipBlanks_bind, run_atEnd_bind]
  cases hrest : c₁.pastBlanks.rest with
  | nil => exact ⟨hx, h₁.pastBlanks⟩
  | cons a r =>
    have ha : c₁.pastBlanks.rest.head? = some a := by rw [hrest]; rfl
    show Ends ((unexpected : Reader Binary64).run c₁.pastBlanks) _ _
    rw [run_unexpected]
    exact sited_unexpected h₁.pastBlanks ha (Cursor.isBlank_of_head?_pastBlanks ha)

end Reader

namespace Evaluator

open Reader

/-- A failure names the text and the source of its evaluation, and a place in the text at
    which stands what it is about. -/
theorem pointsAt_of_evaluate_error (v : Evaluator) (s : String) (f : Failure)
    (h : v.evaluate s = .error f) :
    f.text = s ∧ f.source = v.source ∧ f.diagnostic.text = s ∧ f.diagnostic.source = v.source ∧
      ∃ p : Nat, f.position = p ∧ f.diagnostic.position = p ∧ p ≤ s.toList.length ∧
        f.fault.PointsAt v.machine s.toList p := by
  obtain ⟨htext, hsource⟩ := text_and_source_of_evaluate h
  refine ⟨htext, hsource, htext, hsource, ?_⟩
  have hstart : Within s.toList (Cursor.start s) := ⟨⟨[], .refl _⟩, List.suffix_refl _⟩
  have hread := locates_whole (m := v.machine) v.frames hstart
  rw [evaluate] at h
  cases hrun : (whole v.machine v.frames).run (Cursor.start s) with
  | ok x c =>
    rw [hrun] at h
    cases h
  | error e c =>
    rw [hrun] at h hread
    obtain rfl := Except.error.inj h
    obtain ⟨p, hp, hle, hpoints⟩ := hread
    exact ⟨p, hp, hp, hle, hpoints⟩

/-- The square root is named where it starts, though its argument was read before it failed. -/
theorem pointsAt_of_evaluate_squareRoot :
    ({ machine := .plain } : Evaluator).evaluate "1 - sqrt (2 - 3)" =
        .error { fault := .domain "Square root of negative number" "sqrt" (-.one),
                 text := "1 - sqrt (2 - 3)", position := 4 } ∧
      NamedAt "1 - sqrt (2 - 3)".toList 4 "sqrt" ∧
      ∃ g ∈ [Function.sqrt, .ln, .log10], "sqrt" = g.name := by
  have h : ({ machine := .plain } : Evaluator).evaluate "1 - sqrt (2 - 3)" =
      .error { fault := .domain "Square root of negative number" "sqrt" (-.one),
               text := "1 - sqrt (2 - 3)", position := 4 } := by
    decide +kernel
  obtain ⟨_, _, _, _, p, hp, _, _, hnamed, hrefused⟩ := pointsAt_of_evaluate_error _ _ _ h
  obtain rfl : 4 = p := Int.ofNat.inj hp
  exact ⟨h, hnamed, hrefused Elementary.plain_regular⟩

end Evaluator

end Calculator
