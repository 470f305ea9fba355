import Calculator.Proofs.Faults
import Calculator.Proofs.Levels

/-!
# Texts within texts

A text is read in the same way where it stands within a longer one. What stands before it only
shifts the offsets, as readers never look back. What stands after it must not be taken for more
of it: it is nothing at all, or begins with a closing parenthesis, which is a part of no number,
name, sign or operator (`Closing`).

The two runs go side by side (`Carried`). What one text gives, a value or the fault of a
computation, it gives within the other as well, with its place shifted. Only what is badly
written may look different there, since it may be just the end that is missing.
-/

namespace Calculator

/-- What may stand after a text, so that it is not read on: nothing, or a closing parenthesis
    and anything. -/
def Closing (tail : List Char) : Prop := tail = [] ∨ ∃ after, tail = ')' :: after

namespace Closing

variable {tail : List Char}

/-- The closing parenthesis is of no class. -/
theorem takeWhile_append (h : Closing tail) {p : Char → Bool} (hp : p ')' = false)
    (cs : List Char) : (cs ++ tail).takeWhile p = cs.takeWhile p := by
  induction cs with
  | nil =>
    rcases h with rfl | ⟨after, rfl⟩
    · rfl
    · exact List.takeWhile_cons_of_neg (by rw [hp]; exact Bool.false_ne_true)
  | cons a cs ih => rw [List.cons_append, List.takeWhile_cons, List.takeWhile_cons, ih]

/-- Other characters stand where they do without what follows the text. -/
theorem getElem?_append_eq_some_iff (h : Closing tail) {a : Char} (ha : a ≠ ')')
    (cs : List Char) : (cs ++ tail)[0]? = some a ↔ cs[0]? = some a := by
  cases cs with
  | cons b cs => exact Iff.rfl
  | nil =>
    rcases h with rfl | ⟨after, rfl⟩
    · exact Iff.rfl
    · exact ⟨fun hclose => absurd (Option.some.inj hclose).symm ha, nofun⟩

theorem head?_append_eq_some_iff (h : Closing tail) {a : Char} (ha : a ≠ ')') (cs : List Char) :
    (cs ++ tail).head? = some a ↔ cs.head? = some a := by
  rw [List.head?_eq_getElem?, List.head?_eq_getElem?]
  exact h.getElem?_append_eq_some_iff ha cs

/-- Two stars stand where they do without what follows the text. -/
theorem stars_append_iff (h : Closing tail) (cs : List Char) :
    ((cs ++ tail)[0]? = some '*' ∧ (cs ++ tail)[1]? = some '*') ↔
      (cs[0]? = some '*' ∧ cs[1]? = some '*') := by
  cases cs with
  | nil =>
    have hstar := h.getElem?_append_eq_some_iff (a := '*') (by decide) []
    exact ⟨fun hstars => absurd (hstar.1 hstars.1) nofun, fun hstars => absurd hstars.1 nofun⟩
  | cons b cs => exact and_congr_right fun _ => h.getElem?_append_eq_some_iff (by decide) cs

end Closing

namespace Reader

variable {α β : Type} {shift : Nat} {tail : List Char}

/-- The second cursor is at the same place as the first one, in a text that holds the text of
    the first one between others: `shift` characters before it, and `tail` after it. -/
structure Embedded (shift : Nat) (tail : List Char) (c d : Cursor) : Prop where
  rest : d.rest = c.rest ++ tail
  offset : d.offset = c.offset + shift

namespace Embedded

variable {c d : Cursor}

/-- Past characters of the text. -/
theorem forward (h : Embedded shift tail c d) {k : Nat} (hk : k ≤ c.rest.length) :
    Embedded shift tail (c.forward k) (d.forward k) where
  rest := by
    show d.rest.drop k = c.rest.drop k ++ tail
    rw [h.rest, List.drop_append_of_le_length hk]
  offset := by
    show d.offset + (d.rest.take k).length = c.offset + (c.rest.take k).length + shift
    rw [h.rest, List.take_append_of_le_length hk, h.offset, Nat.add_right_comm]

theorem forward_one (h : Embedded shift tail c d) {a : Char} (ha : c.rest.head? = some a) :
    Embedded shift tail (c.forward 1) (d.forward 1) := by
  obtain ⟨r, hr⟩ := List.head?_eq_some_iff.1 ha
  exact h.forward (by rw [hr]; exact Nat.succ_le_succ (Nat.zero_le _))

/-- The same run of a class comes next, and past it the cursors are at the same place. -/
theorem takeWhile (h : Embedded shift tail c d) (hclose : Closing tail) {p : Char → Bool}
    (hp : p ')' = false) :
    d.rest.takeWhile p = c.rest.takeWhile p ∧
      Embedded shift tail (c.forward (c.rest.takeWhile p).length)
        (d.forward (c.rest.takeWhile p).length) := by
  refine ⟨by rw [h.rest]; exact hclose.takeWhile_append hp c.rest, h.forward ?_⟩
  exact (List.takeWhile_prefix p).length_le

theorem pastBlanks (h : Embedded shift tail c d) (hclose : Closing tail) :
    Embedded shift tail c.pastBlanks d.pastBlanks := by
  obtain ⟨hblanks, hpast⟩ := h.takeWhile hclose (p := Text.isBlank) (by decide)
  rw [Cursor.pastBlanks, Cursor.pastBlanks, hblanks]
  exact hpast

theorem head?_eq_some_iff (h : Embedded shift tail c d) (hclose : Closing tail) {a : Char}
    (ha : a ≠ ')') : d.rest.head? = some a ↔ c.rest.head? = some a := by
  rw [h.rest]
  exact hclose.head?_append_eq_some_iff ha c.rest

/-- A character of the text comes next at both cursors. -/
theorem head?_eq (h : Embedded shift tail c d) {a : Char} (ha : c.rest.head? = some a) :
    d.rest.head? = some a := by
  obtain ⟨r, hr⟩ := List.head?_eq_some_iff.1 ha
  rw [h.rest, hr]
  rfl

/-- The same operator comes next, or none. -/
theorem head?_bind (h : Embedded shift tail c d) (hclose : Closing tail)
    {operator? : Char → Option Operator} (hoperator : operator? ')' = none) :
    d.rest.head?.bind operator? = c.rest.head?.bind operator? := by
  rw [h.rest]
  cases c.rest with
  | cons a r => rfl
  | nil =>
    rcases hclose with rfl | ⟨after, rfl⟩
    · rfl
    · exact hoperator

/-- If nothing stands after the text, the same is left. -/
theorem rest_eq (h : Embedded shift [] c d) : d.rest = c.rest := h.rest.trans (List.append_nil _)

end Embedded

/-- What the first run gives, the second one gives at the same place: a value, or a fault; but
    if there is a text after the first one, not what is badly written. -/
def Carried (shift : Nat) (tail : List Char) (x y : Outcome α) : Prop :=
  Ends x (fun a c => ∃ d, y = .ok a d ∧ Embedded shift tail c d)
    fun e c => (tail ≠ [] ∧ e.fault.isSyntactic = true) ∨
      ∃ d, y = .error ⟨e.fault, e.position + shift⟩ d ∧ Embedded shift tail c d

variable {c d : Cursor}

/-- The runs of binds go side by side if those of their parts do. -/
theorem Carried.bind {r r' : Reader α} {f f' : α → Reader β}
    (h : Carried shift tail (r.run c) (r'.run d))
    (hf : ∀ a c' d', r.run c = .ok a c' → Embedded shift tail c' d' →
      Carried shift tail ((f a).run c') ((f' a).run d')) :
    Carried shift tail ((r >>= f).run c) ((r' >>= f').run d) := by
  refine Ends.bind_of_run h (fun a c' hr ⟨d', hd, hembedded⟩ => ?_) fun e c' he => ?_
  · rw [run_bind_of_ok hd]
    exact hf a c' d' hr hembedded
  · refine he.imp_right ?_
    rintro ⟨d', hd, hembedded⟩
    exact ⟨d', run_bind_of_error hd _, hembedded⟩

theorem carried_pure (h : Embedded shift tail c d) (a : α) :
    Carried shift tail ((pure a : Reader α).run c) ((pure a : Reader α).run d) := ⟨d, rfl, h⟩

/-- The same fault is found at the same place. -/
theorem carried_error (h : Embedded shift tail c d) (fault : Fault) (p : Nat) :
    Carried shift tail (.error ⟨fault, p⟩ c : Outcome α)
      (.error ⟨fault, (p + shift : Nat)⟩ d) := by
  refine .inr ⟨d, ?_, h⟩
  rw [Int.natCast_add]

/-- What is badly written need only be found again if nothing stands after the text. -/
theorem carried_of_isSyntactic {e : Located} {y : Outcome α} (he : e.fault.isSyntactic = true)
    (h : tail = [] → Carried shift tail (.error e c) y) : Carried shift tail (.error e c) y := by
  by_cases htail : tail = []
  · exact h htail
  · exact .inl ⟨htail, he⟩

/-- A computation that fails does so at the given position, shifted. -/
theorem carried_valueAt_int (h : Embedded shift tail c d) (p : Int) (x : Except Fault α) :
    Carried shift tail ((valueAt p x).run c) ((valueAt (p + shift) x).run d) := by
  cases x with
  | ok a => exact carried_pure h a
  | error fault => exact .inr ⟨d, rfl, h⟩

theorem carried_valueAt (h : Embedded shift tail c d) (p : Nat) (x : Except Fault α) :
    Carried shift tail ((valueAt p x).run c) ((valueAt (p + shift : Nat) x).run d) := by
  rw [Int.natCast_add]
  exact carried_valueAt_int h p x

theorem carried_unexpected (h : Embedded shift tail c d) :
    Carried shift tail ((unexpected : Reader α).run c) ((unexpected : Reader α).run d) := by
  rw [run_unexpected, run_unexpected]
  refine carried_of_isSyntactic rfl ?_
  rintro rfl
  rw [h.rest_eq, h.offset]
  exact carried_error h _ _

variable (hclose : Closing tail)
include hclose

theorem carried_expect {fault : Fault} (hfault : fault.isSyntactic = true) (a : Char)
    (h : Embedded shift tail c d) :
    Carried shift tail ((expect a fault).run c) ((expect a fault).run d) := by
  have hpast := h.pastBlanks hclose
  rw [run_expect, run_expect]
  by_cases ha : c.pastBlanks.rest.head? = some a
  · rw [if_pos ha, if_pos (hpast.head?_eq ha)]
    exact ⟨_, rfl, hpast.forward_one ha⟩
  · rw [if_neg ha]
    refine carried_of_isSyntactic hfault ?_
    rintro rfl
    rw [hpast.rest_eq, if_neg ha, hpast.offset]
    exact carried_error hpast _ _

/-- A power has its sign in both texts. -/
theorem carried_powerSign (h : Embedded shift tail c d) :
    Carried shift tail (powerSign.run c) (powerSign.run d) := by
  have hstars : (d.rest[0]? = some '*' ∧ d.rest[1]? = some '*') ↔
      (c.rest[0]? = some '*' ∧ c.rest[1]? = some '*') := by
    rw [h.rest]
    exact hclose.stars_append_iff c.rest
  simp only [run_powerSign, h.head?_eq_some_iff hclose (a := '^') (by decide), hstars]
  split
  · rename_i hcaret
    exact ⟨_, rfl, h.forward_one hcaret⟩
  · split
    · rename_i hpair
      exact ⟨_, rfl, h.forward (List.getElem?_eq_some_iff.1 hpair.2).1⟩
    · exact ⟨_, rfl, h⟩

theorem carried_number (h : Embedded shift tail c d) :
    Carried shift tail (number.run c) (number.run d) := by
  have hliteral (whole fraction : List Char) {c' d' : Cursor} (h' : Embedded shift tail c' d') :
      Carried shift tail ((literal c.offset whole fraction).run c')
        ((literal (c.offset + shift) whole fraction).run d') := by
    rw [literal, literal]
    split
    · exact carried_error h' _ _
    · exact carried_valueAt h' _ _
  obtain ⟨hwhole, hpast⟩ := h.takeWhile hclose (p := Char.isDigit) (by decide)
  rw [run_number, run_number, hwhole, h.offset]
  simp only [hpast.head?_eq_some_iff hclose (a := '.') (by decide)]
  split
  · rename_i hpoint
    obtain ⟨hfraction, hpast'⟩ :=
      (hpast.forward_one hpoint).takeWhile hclose (p := Char.isDigit) (by decide)
    rw [hfraction]
    exact hliteral _ _ hpast'
  · exact hliteral _ _ hpast

/-- Chains go side by side if their operands do. -/
theorem carried_chain {operator? : Char → Option Operator} {operand : Reader Binary64}
    (hp : Progresses operand) (hoperator : operator? ')' = none)
    (hoperand : ∀ c d, Embedded shift tail c d →
      Carried shift tail (operand.run c) (operand.run d))
    (h : Embedded shift tail c d) :
    Carried shift tail ((chain operator? operand).run c) ((chain operator? operand).run d) := by
  rw [chain_eq]
  refine (hoperand c d h).bind fun value c₁ d₁ hrun h₁ => ?_
  clear hrun
  -- The induction is on what is left of the first text before each link.
  generalize hn : c₁.rest.length = n
  induction n using Nat.strongRecOn generalizing value c₁ d₁ with
  | ind n ih =>
    have hpast := h₁.pastBlanks hclose
    rw [run_chainTail hp, run_chainTail hp, hpast.head?_bind hclose hoperator, hpast.offset]
    split
    · exact ⟨_, rfl, hpast⟩
    · rename_i operator ho
      obtain ⟨a, ha, _⟩ := Option.bind_eq_some_iff.1 ho
      have hlink : Carried shift tail
          ((chainLink operand value c₁.pastBlanks.offset operator).run (c₁.pastBlanks.forward 1))
          ((chainLink operand value (c₁.pastBlanks.offset + shift) operator).run
            (d₁.pastBlanks.forward 1)) :=
        (hoperand _ _ (hpast.forward_one ha)).bind fun y c₂ d₂ _ h₂ => carried_valueAt h₂ _ _
      refine hlink.bind fun value' c₂ d₂ hr h₂ => ?_
      exact ih _ (hn ▸ length_rest_chainLink_lt hp ho hr) value' c₂ d₂ h₂ rfl

/-! ## Levels -/

variable {m : Elementary} {frames : Nat}

section

variable (ih : ∀ l c d, Embedded shift tail c d →
  Carried shift tail ((read m l frames).run c) ((read m l frames).run d))
include ih

theorem carried_raised (base : Binary64) (h : Embedded shift tail c d) :
    Carried shift tail ((raised m frames base).run c) ((raised m frames base).run d) := by
  rw [raised, run_position_bind, run_position_bind, h.offset]
  refine (carried_powerSign hclose h).bind fun found c₁ d₁ _ h₁ => ?_
  cases found with
  | false => exact carried_pure h₁ base
  | true => exact (ih .factor c₁ d₁ h₁).bind fun y c₂ d₂ _ h₂ => carried_valueAt h₂ _ _

theorem carried_powered (h : Embedded shift tail c d) :
    Carried shift tail ((powered m frames).run c) ((powered m frames).run d) := by
  refine (ih .primary c d h).bind fun base c₁ d₁ _ h₁ => ?_
  rw [run_skipBlanks_bind, run_skipBlanks_bind]
  exact carried_raised hclose ih base (h₁.pastBlanks hclose)

theorem carried_group (h : Embedded shift tail c d) :
    Carried shift tail ((group m frames).run c) ((group m frames).run d) :=
  (ih .expression c d h).bind fun value _ _ _ h₁ =>
    (carried_expect hclose rfl ')' h₁).bind fun _ _ _ _ h₂ => carried_pure h₂ value

theorem carried_argument (start : Nat) (name : String) (h : Embedded shift tail c d) :
    Carried shift tail ((argument m frames start name).run c)
      ((argument m frames (start + shift) name).run d) :=
  (carried_expect hclose rfl '(' h).bind fun _ _ _ _ h₁ =>
    (ih .expression _ _ h₁).bind fun _ _ _ _ h₂ =>
      (carried_expect hclose rfl ')' h₂).bind fun _ _ _ _ h₃ => carried_valueAt h₃ _ _

theorem carried_factor (h : Embedded shift tail c d) :
    Carried shift tail ((read m .factor (frames + 1)).run c)
      ((read m .factor (frames + 1)).run d) := by
  have hpast := h.pastBlanks hclose
  rw [run_factor, run_factor]
  by_cases hend : c.pastBlanks.rest = []
  · rw [if_pos hend]
    refine carried_of_isSyntactic rfl ?_
    rintro rfl
    rw [if_pos (hpast.rest_eq.trans hend), hpast.offset]
    exact carried_error hpast _ _
  · have hend' : d.pastBlanks.rest ≠ [] := by
      rw [hpast.rest]
      exact List.append_ne_nil_of_left_ne_nil hend tail
    rw [if_neg hend, if_neg hend']
    simp only [hpast.head?_eq_some_iff hclose (a := '-') (by decide)]
    split
    · rename_i hminus
      exact (ih .factor _ _ (hpast.forward_one hminus)).bind fun x _ _ _ h₁ => carried_pure h₁ (-x)
    · exact carried_powered hclose ih hpast

theorem carried_primary (h : Embedded shift tail c d) :
    Carried shift tail ((read m .primary (frames + 1)).run c)
      ((read m .primary (frames + 1)).run d) := by
  have hunexpected := carried_unexpected (α := Binary64) h
  rw [run_primary, run_primary]
  cases ha : c.rest.head? with
  | none =>
    dsimp only
    rw [run_unexpected]
    refine carried_of_isSyntactic rfl ?_
    rintro rfl
    rw [run_unexpected, ha] at hunexpected
    rw [h.rest_eq, ha]
    exact hunexpected
  | some a =>
    rw [h.head?_eq ha]
    dsimp only
    split
    · exact carried_group hclose ih (h.forward_one ha)
    · split
      · exact ih .call c d h
      · split
        · exact carried_number hclose h
        · exact hunexpected

theorem carried_call (h : Embedded shift tail c d) :
    Carried shift tail ((read m .call (frames + 1)).run c)
      ((read m .call (frames + 1)).run d) := by
  obtain ⟨hname, hpast⟩ := h.takeWhile hclose (p := Char.isAlphanum) (by decide)
  rw [run_call, run_call, hname, h.offset]
  exact carried_argument hclose ih _ _ hpast

end

variable (m)

/-- Whatever is read of a text is read of it within another. -/
theorem carried_read (frames : Nat) (l : Level) (h : Embedded shift tail c d) :
    Carried shift tail ((read m l frames).run c) ((read m l frames).run d) := by
  induction frames generalizing l c d with
  | zero =>
    rw [read_zero, run_tooDeep, run_tooDeep, h.offset]
    exact carried_error h _ _
  | succ frames ih =>
    cases l with
    | expression =>
      exact carried_chain hclose (progresses_read m frames .term) rfl (fun _ _ => ih .term) h
    | term =>
      exact carried_chain hclose (progresses_read m frames .factor) rfl (fun _ _ => ih .factor) h
    | factor => exact carried_factor hclose (fun l _ _ => ih l) h
    | primary => exact carried_primary hclose (fun l _ _ => ih l) h
    | call => exact carried_call hclose (fun l _ _ => ih l) h

end Reader

end Calculator
