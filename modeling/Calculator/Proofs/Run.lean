import Calculator.Reader.Expression

/-!
# Runs of readers

What a reader does at a cursor is an *outcome*: a value or a fault, and the cursor
at which it stops. This file takes outcomes apart along the binds of which readers
are made:

* a bind is run by running its parts one after the other (`run_bind`), and the
  readers that look at single characters have outcomes that can be written down;
* `Ends` says what holds of an outcome, one thing for values and another for faults,
  and is carried through binds (`Ends.bind`) and chains (`ends_chain`);
* no reader moves the cursor back (`Progresses`), so a chain has always enough
  characters left in its count, and the count can be forgotten (`run_chainTail`).
-/

namespace Calculator

namespace Cursor

/-- The cursor past the blanks. -/
def pastBlanks (c : Cursor) : Cursor := c.forward (c.rest.takeWhile Text.isBlank).length

/-- The cursor `c'` is past the text `w` that follows `c`. -/
structure Reaches (c : Cursor) (w : List Char) (c' : Cursor) : Prop where
  rest : c.rest = w ++ c'.rest
  offset : c'.offset = c.offset + w.length

namespace Reaches

theorem refl (c : Cursor) : c.Reaches [] c := ⟨rfl, rfl⟩

theorem trans {c₁ c₂ c₃ : Cursor} {v w : List Char} (h₁ : c₁.Reaches v c₂)
    (h₂ : c₂.Reaches w c₃) : c₁.Reaches (v ++ w) c₃ where
  rest := by rw [h₁.rest, h₂.rest, List.append_assoc]
  offset := by rw [h₂.offset, h₁.offset, List.length_append, Nat.add_assoc]

theorem offset_le {c c' : Cursor} {w : List Char} (h : c.Reaches w c') : c.offset ≤ c'.offset := by
  rw [h.offset]
  exact Nat.le_add_right ..

theorem finish_eq {c c' : Cursor} {w : List Char} (h : c.Reaches w c') : c'.finish = c.finish := by
  rw [finish, finish, h.offset, h.rest, List.length_append, Nat.add_assoc]

theorem length_le {c c' : Cursor} {w : List Char} (h : c.Reaches w c') :
    c'.rest.length ≤ c.rest.length := by
  rw [h.rest, List.length_append]
  exact Nat.le_add_left ..

end Reaches

theorem reaches_forward (c : Cursor) (k : Nat) : c.Reaches (c.rest.take k) (c.forward k) :=
  ⟨(List.take_append_drop k c.rest).symm, rfl⟩

/-- Moving past one character. -/
theorem reaches_forward_one {c : Cursor} {a : Char} (h : c.rest.head? = some a) :
    c.Reaches [a] (c.forward 1) := by
  have ht : c.rest.take 1 = [a] := by
    obtain ⟨r, hr⟩ := List.head?_eq_some_iff.1 h
    rw [hr]
    rfl
  have := c.reaches_forward 1
  rwa [ht] at this

/-- Moving past the longest run of a class. -/
theorem reaches_takeWhile (c : Cursor) (p : Char → Bool) :
    c.Reaches (c.rest.takeWhile p) (c.forward (c.rest.takeWhile p).length) := by
  have h := c.reaches_forward (c.rest.takeWhile p).length
  rwa [List.prefix_iff_eq_take.1 (List.takeWhile_prefix p) |>.symm] at h

theorem rest_forward_takeWhile (c : Cursor) (p : Char → Bool) :
    (c.forward (c.rest.takeWhile p).length).rest = c.rest.dropWhile p := by
  have h : c.rest.takeWhile p ++ c.rest.dropWhile p = c.rest := List.takeWhile_append_dropWhile
  exact (List.append_cancel_left (h.trans (c.reaches_takeWhile p).rest)).symm

theorem rest_pastBlanks (c : Cursor) : c.pastBlanks.rest = c.rest.dropWhile Text.isBlank :=
  c.rest_forward_takeWhile _

theorem reaches_pastBlanks (c : Cursor) :
    c.Reaches (c.rest.takeWhile Text.isBlank) c.pastBlanks := c.reaches_takeWhile _

/-- Past the blanks there is no blank. -/
theorem isBlank_of_head?_pastBlanks {c : Cursor} {a : Char}
    (h : c.pastBlanks.rest.head? = some a) : Text.isBlank a = false := by
  rw [rest_pastBlanks] at h
  exact Text.head?_dropWhile_isBlank _ _ h

/-- There are blanks to pass only once. -/
theorem pastBlanks_eq_self {c : Cursor} (h : ∀ a, c.rest.head? = some a → Text.isBlank a = false) :
    c.pastBlanks = c := by
  obtain ⟨k, r⟩ := c
  cases r with
  | nil => rfl
  | cons a r =>
    have ha : Text.isBlank a = false := h a rfl
    simp [pastBlanks, forward, ha]

theorem pastBlanks_pastBlanks (c : Cursor) : c.pastBlanks.pastBlanks = c.pastBlanks :=
  pastBlanks_eq_self fun _ => isBlank_of_head?_pastBlanks

/-- Past given blanks, and any others after them. -/
theorem pastBlanks_append (k : Nat) {b : List Char} (hb : ∀ a ∈ b, Text.isBlank a = true)
    (r : List Char) :
    (Cursor.mk k (b ++ r)).pastBlanks = (Cursor.mk (k + b.length) r).pastBlanks := by
  induction b generalizing k with
  | nil => rfl
  | cons a b ih =>
    have ha : Text.isBlank a = true := hb a List.mem_cons_self
    rw [List.length_cons, Nat.add_comm b.length, ← Nat.add_assoc,
      ← ih (k + 1) fun x hx => hb x (List.mem_cons_of_mem _ hx)]
    simp only [pastBlanks, forward, List.cons_append, List.takeWhile_cons, ha, if_true,
      List.length_cons, List.take_succ_cons, List.drop_succ_cons, mk.injEq, and_true]
    omega

end Cursor

namespace Reader

variable {α β : Type}

/-- What a reader does at a cursor. -/
abbrev Outcome (α : Type) := EStateM.Result Located Cursor α

/-- The cursor at which a reader stops. -/
def final : Outcome α → Cursor
  | .ok _ c => c
  | .error _ c => c

/-- The value that a reader gives and the cursor after it, if it does not fail. -/
def valueOf? : Outcome α → Option (α × Cursor)
  | .ok a c => some (a, c)
  | .error _ _ => none

theorem valueOf?_eq_some_iff {x : Outcome α} {a : α} {c : Cursor} :
    valueOf? x = some (a, c) ↔ x = .ok a c := by
  cases x <;> simp [valueOf?]

/-! ## Binds -/

theorem run_pure (a : α) (c : Cursor) : (pure a : Reader α).run c = .ok a c := rfl

/-- A bind goes on from the state that its first part leaves; readers have the cursor for
    a state. -/
theorem run_bind {σ : Type} (r : EStateM Located σ α) (f : α → EStateM Located σ β) (c : σ) :
    (r >>= f).run c = match r.run c with
      | .ok a c' => (f a).run c'
      | .error e c' => .error e c' := by
  show EStateM.bind r f c = _
  rw [EStateM.bind, EStateM.run]
  split <;> rename_i h <;> rw [h]
  rfl

theorem run_bind_of_ok {r : Reader α} {c c' : Cursor} {a : α} (h : r.run c = .ok a c')
    (f : α → Reader β) : (r >>= f).run c = (f a).run c' := by
  rw [run_bind, h]

theorem run_bind_of_error {r : Reader α} {c c' : Cursor} {e : Located} (h : r.run c = .error e c')
    (f : α → Reader β) : (r >>= f).run c = .error e c' := by
  rw [run_bind, h]

/-- Two ways to go on may be exchanged where they agree. -/
theorem run_bind_congr {r : Reader α} {f g : α → Reader β} {c : Cursor}
    (h : ∀ a c', r.run c = .ok a c' → (f a).run c' = (g a).run c') :
    (r >>= f).run c = (r >>= g).run c := by
  rw [run_bind, run_bind]
  cases hr : r.run c with
  | ok a c' => exact h a c' hr
  | error e c' => rfl

theorem run_skipBlanks_bind (f : Unit → Reader β) (c : Cursor) :
    (skipBlanks >>= f).run c = (f ()).run c.pastBlanks := rfl

theorem run_position_bind (f : Nat → Reader β) (c : Cursor) :
    (position >>= f).run c = (f c.offset).run c := rfl

theorem run_peek_bind (k : Nat) (f : Option Char → Reader β) (c : Cursor) :
    (peek k >>= f).run c = (f c.rest[k]?).run c := rfl

theorem run_atEnd_bind (f : Bool → Reader β) (c : Cursor) :
    (atEnd >>= f).run c = (f c.rest.isEmpty).run c := rfl

theorem run_takeWhile_bind (p : Char → Bool) (f : List Char → Reader β) (c : Cursor) :
    (takeWhile p >>= f).run c =
      (f (c.rest.takeWhile p)).run (c.forward (c.rest.takeWhile p).length) := rfl

theorem run_skip_bind (a : Char) (f : Bool → Reader β) (c : Cursor) :
    (skip a >>= f).run c =
      if c.rest.head? = some a then (f true).run (c.forward 1) else (f false).run c := by
  rw [run_bind, run_skip]
  by_cases h : c.rest.head? = some a <;> simp [h]

/-- A character is expected past the blanks. -/
theorem run_expect (a : Char) (fault : Fault) (c : Cursor) :
    (expect a fault).run c =
      if c.pastBlanks.rest.head? = some a then .ok () (c.pastBlanks.forward 1)
      else .error ⟨fault, c.pastBlanks.offset⟩ c.pastBlanks := by
  rw [expect, run_skipBlanks_bind, run_skip_bind]
  by_cases h : c.pastBlanks.rest.head? = some a
  · rw [if_pos h, if_pos h]
    rfl
  · rw [if_neg h, if_neg h]
    rfl

theorem run_unexpected (c : Cursor) :
    (unexpected : Reader α).run c = .error ⟨.unexpectedCharacter c.rest.head?, c.offset⟩ c := by
  rw [List.head?_eq_getElem?]
  rfl

theorem run_tooDeep (c : Cursor) :
    (tooDeep : Reader α).run c = .error ⟨.nestingTooDeep, c.offset⟩ c := rfl

/-! ## Postconditions -/

/-- What holds of an outcome: `Q` of a value and the cursor after it, or `E` of a
    fault and the cursor at which it was met. -/
def Ends (x : Outcome α) (Q : α → Cursor → Prop) (E : Located → Cursor → Prop) : Prop :=
  match x with
  | .ok a c => Q a c
  | .error e c => E e c

theorem Ends.imp {x : Outcome α} {Q Q' : α → Cursor → Prop} {E E' : Located → Cursor → Prop}
    (h : Ends x Q E) (hQ : ∀ a c, Q a c → Q' a c) (hE : ∀ e c, E e c → E' e c) : Ends x Q' E' := by
  cases x with
  | ok a c => exact hQ a c h
  | error e c => exact hE e c h

/-- What holds of values holds of the value that there is. -/
theorem Ends.value {x : Outcome α} {Q : α → Cursor → Prop} {E : Located → Cursor → Prop}
    (h : Ends x Q E) {a : α} {c : Cursor} (hx : x = .ok a c) : Q a c := by
  rwa [hx] at h

/-- What is known of the value that there is may be added. -/
theorem Ends.and_value {x : Outcome α} {Q P : α → Cursor → Prop} {E : Located → Cursor → Prop}
    (h : Ends x Q E) (hP : ∀ a c, x = .ok a c → P a c) :
    Ends x (fun a c => Q a c ∧ P a c) E := by
  cases x with
  | ok a c => exact ⟨h, hP a c rfl⟩
  | error e c => exact h

/-- The second part of a bind goes on from where the first one has led, with its value. -/
theorem Ends.bind_of_run {r : Reader α} {f : α → Reader β} {c : Cursor} {Q : α → Cursor → Prop}
    {R : β → Cursor → Prop} {E E' : Located → Cursor → Prop} (h : Ends (r.run c) Q E)
    (hf : ∀ a c', r.run c = .ok a c' → Q a c' → Ends ((f a).run c') R E')
    (hE : ∀ e c', E e c' → E' e c') : Ends ((r >>= f).run c) R E' := by
  rw [run_bind]
  cases hr : r.run c with
  | ok a c' =>
    rw [hr] at h
    exact hf a c' hr h
  | error e c' =>
    rw [hr] at h
    exact hE e c' h

/-- A postcondition of the first part of a bind is the precondition of the second. -/
theorem Ends.bind {r : Reader α} {f : α → Reader β} {c : Cursor} {Q : α → Cursor → Prop}
    {R : β → Cursor → Prop} {E : Located → Cursor → Prop} (h : Ends (r.run c) Q E)
    (hf : ∀ a c', Q a c' → Ends ((f a).run c') R E) : Ends ((r >>= f).run c) R E :=
  h.bind_of_run (fun a c' _ => hf a c') fun _ _ he => he

/-- A value is passed on, and a fault is located where it was looked for. -/
theorem ends_valueAt {position : Int} {x : Except Fault α} {c : Cursor} {Q : α → Cursor → Prop}
    {E : Located → Cursor → Prop} (hQ : ∀ a, x = .ok a → Q a c)
    (hE : ∀ fault, x = .error fault → E ⟨fault, position⟩ c) :
    Ends ((valueAt position x).run c) Q E := by
  cases x with
  | ok a => exact hQ a rfl
  | error fault => exact hE fault rfl

/-! ## The cursor moves forward only -/

/-- Wherever the reader starts, it stops there or further on in the same text. -/
def Progresses (r : Reader α) : Prop :=
  ∀ c : Cursor, ∃ w, c.Reaches w (final (r.run c))

/-- A value is found at the cursor or further on. -/
theorem Progresses.exists_reaches {r : Reader α} (h : Progresses r) {c c' : Cursor} {a : α}
    (hr : r.run c = .ok a c') : ∃ w, c.Reaches w c' := by
  obtain ⟨w, hw⟩ := h c
  rw [hr] at hw
  exact ⟨w, hw⟩

theorem Progresses.bind {r : Reader α} {f : α → Reader β} (hr : Progresses r)
    (hf : ∀ a, Progresses (f a)) : Progresses (r >>= f) := by
  intro c
  obtain ⟨v, hv⟩ := hr c
  rw [run_bind]
  cases h : r.run c with
  | ok a c' =>
    rw [h] at hv
    obtain ⟨w, hw⟩ := hf a c'
    exact ⟨v ++ w, hv.trans hw⟩
  | error e c' =>
    rw [h] at hv
    exact ⟨v, hv⟩

/-- What leaves the cursor where it is. -/
theorem Progresses.of_final_eq {r : Reader α} (h : ∀ c, final (r.run c) = c) : Progresses r := by
  intro c
  rw [h]
  exact ⟨[], .refl c⟩

theorem progresses_pure (a : α) : Progresses (pure a) := .of_final_eq fun _ => rfl

theorem progresses_position : Progresses position := .of_final_eq fun _ => rfl

theorem progresses_peek (k : Nat) : Progresses (peek k) := .of_final_eq fun _ => rfl

theorem progresses_atEnd : Progresses atEnd := .of_final_eq fun _ => rfl

theorem progresses_get : Progresses (get : Reader Cursor) := .of_final_eq fun _ => rfl

theorem progresses_fail (fault : Fault) : Progresses (fail fault : Reader α) :=
  .of_final_eq fun _ => rfl

theorem progresses_failAt (position : Int) (fault : Fault) :
    Progresses (failAt position fault : Reader α) := .of_final_eq fun _ => rfl

theorem progresses_unexpected : Progresses (unexpected : Reader α) := .of_final_eq fun _ => rfl

theorem progresses_valueAt (position : Int) (x : Except Fault α) :
    Progresses (valueAt position x) := .of_final_eq fun _ => by cases x <;> rfl

theorem progresses_advance (k : Nat) : Progresses (advance k) :=
  fun c => ⟨_, c.reaches_forward k⟩

theorem progresses_takeWhile (p : Char → Bool) : Progresses (takeWhile p) :=
  fun c => ⟨_, c.reaches_takeWhile p⟩

theorem progresses_skipBlanks : Progresses skipBlanks := fun c => ⟨_, c.reaches_pastBlanks⟩

theorem progresses_skip (a : Char) : Progresses (skip a) := by
  intro c
  rw [run_skip]
  split
  · exact ⟨_, c.reaches_forward 1⟩
  · exact ⟨_, .refl c⟩

theorem progresses_expect (a : Char) (fault : Fault) : Progresses (expect a fault) := by
  refine progresses_skipBlanks.bind fun _ => (progresses_skip a).bind fun b => ?_
  cases b
  · exact progresses_fail fault
  · exact progresses_pure ()

theorem progresses_powerSign : Progresses powerSign := by
  refine (progresses_skip '^').bind fun b => ?_
  cases b
  · refine (progresses_peek 0).bind fun a => (progresses_peek 1).bind fun a' => ?_
    split
    · exact (progresses_advance 2).bind fun _ => progresses_pure true
    · exact progresses_pure false
  · exact progresses_pure true

/-- The value of a number whose digits are read. -/
def literal (start : Nat) (whole fraction : List Char) : Reader Binary64 :=
  if whole.isEmpty && fraction.isEmpty then failAt start .malformedNumber
  else valueAt start (checkFinite ((Decimal.ofNumeral whole fraction).toBinary64 false))

theorem progresses_literal (start : Nat) (whole fraction : List Char) :
    Progresses (literal start whole fraction) := by
  rw [literal]
  split
  · exact progresses_failAt _ _
  · exact progresses_valueAt _ _

/-- The digits after a point, if there is one. -/
def fractionAfter (pointed : Bool) : Reader (List Char) :=
  if pointed then takeWhile Char.isDigit else pure []

/-- A number is the longest run of digits, and after a point one more. -/
theorem number_eq : number = (do
    let start ← position
    let whole ← takeWhile Char.isDigit
    let pointed ← skip '.'
    let fraction ← fractionAfter pointed
    literal start whole fraction) := by
  refine bind_congr fun start => bind_congr fun whole => bind_congr fun pointed => ?_
  cases pointed <;> rfl

theorem progresses_number : Progresses number := by
  rw [number_eq]
  refine progresses_position.bind fun start => (progresses_takeWhile _).bind fun whole =>
    (progresses_skip '.').bind fun pointed => Progresses.bind ?_ fun fraction =>
      progresses_literal start whole fraction
  cases pointed
  · exact progresses_pure []
  · exact progresses_takeWhile _

theorem run_number (c : Cursor) :
    number.run c =
      let whole := c.rest.takeWhile Char.isDigit
      let c₁ := c.forward whole.length
      if c₁.rest.head? = some '.' then
        let fraction := (c₁.forward 1).rest.takeWhile Char.isDigit
        (literal c.offset whole fraction).run ((c₁.forward 1).forward fraction.length)
      else (literal c.offset whole []).run c₁ := by
  rw [number_eq, run_position_bind, run_takeWhile_bind, run_skip_bind]
  dsimp only
  by_cases h : (c.forward (c.rest.takeWhile Char.isDigit).length).rest.head? = some '.'
  · rw [if_pos h, if_pos h]
    exact run_takeWhile_bind _ _ _
  · rw [if_neg h, if_neg h]
    exact run_bind_of_ok (run_pure [] _) _

/-! ## Chains without a count -/

section Chain

variable {operator? : Char → Option Operator} {operand : Reader Binary64}

theorem progresses_chainFrom (h : Progresses operand) (left : List Char) (value : Binary64) :
    Progresses (chainFrom operator? operand left value) := by
  induction left generalizing value with
  | nil => exact progresses_pure value
  | cons a left ih =>
    refine progresses_skipBlanks.bind fun _ => (progresses_peek 0).bind fun next => ?_
    split
    · exact progresses_pure value
    · exact progresses_position.bind fun start => (progresses_advance 1).bind fun _ =>
        h.bind fun next => (progresses_valueAt _ _).bind ih

theorem progresses_chain (h : Progresses operand) : Progresses (chain operator? operand) :=
  h.bind fun _ => progresses_get.bind fun _ => progresses_chainFrom h _ _

variable (operator? operand) in
/-- Goes on with a chain whose value is `value` so far. -/
def chainTail (value : Binary64) : Reader Binary64 := do
  chainFrom operator? operand (← get).rest value

theorem chain_eq : chain operator? operand = operand >>= chainTail operator? operand := rfl

theorem progresses_chainTail (h : Progresses operand) (value : Binary64) :
    Progresses (chainTail operator? operand value) :=
  progresses_get.bind fun _ => progresses_chainFrom h _ _

/-- One link of a chain, past its operator: the operand is read and the operation
    done. -/
def chainLink (operand : Reader Binary64) (value : Binary64) (start : Nat)
    (operator : Operator) : Reader Binary64 := do
  let next ← operand
  valueAt start (operator.apply value next)

theorem progresses_chainLink (h : Progresses operand) (value : Binary64) (start : Nat)
    (operator : Operator) : Progresses (chainLink operand value start operator) :=
  h.bind fun _ => progresses_valueAt _ _

/-- What a chain does next, as long as its count has not run out. -/
theorem run_chainFrom_cons (a : Char) (left : List Char) (value : Binary64) (c : Cursor) :
    (chainFrom operator? operand (a :: left) value).run c =
      match c.pastBlanks.rest.head?.bind operator? with
      | none => .ok value c.pastBlanks
      | some operator =>
        (chainLink operand value c.pastBlanks.offset operator >>=
          chainFrom operator? operand left).run (c.pastBlanks.forward 1) := by
  rw [chainFrom, run_skipBlanks_bind, run_peek_bind, ← List.head?_eq_getElem?]
  cases c.pastBlanks.rest.head?.bind operator? with
  | none => rfl
  | some operator =>
    simp only [chainLink, bind_assoc]
    rfl

/-- Past an operator, less is left of the text. -/
theorem length_rest_forward_lt {c : Cursor} {operator : Operator}
    (h : c.pastBlanks.rest.head?.bind operator? = some operator) :
    (c.pastBlanks.forward 1).rest.length < c.rest.length := by
  obtain ⟨a, ha, _⟩ := Option.bind_eq_some_iff.1 h
  have hpast := c.reaches_pastBlanks.length_le
  rwa [(Cursor.reaches_forward_one ha).rest, List.singleton_append, List.length_cons] at hpast

/-- After a link less is left of the text than before it. -/
theorem length_rest_chainLink_lt (h : Progresses operand) {c c' : Cursor} {operator : Operator}
    {value value' : Binary64} {start : Nat}
    (ho : c.pastBlanks.rest.head?.bind operator? = some operator)
    (hlink : (chainLink operand value start operator).run (c.pastBlanks.forward 1) =
      .ok value' c') :
    c'.rest.length < c.rest.length := by
  obtain ⟨w, hw⟩ := (progresses_chainLink h value start operator).exists_reaches hlink
  exact Nat.lt_of_le_of_lt hw.length_le (length_rest_forward_lt ho)

/-- The count of a chain does not matter if it covers what is left of the text. -/
theorem run_chainFrom_congr (h : Progresses operand) {left left' : List Char} {c : Cursor}
    (hl : c.rest.length ≤ left.length) (hl' : c.rest.length ≤ left'.length) (value : Binary64) :
    (chainFrom operator? operand left value).run c =
      (chainFrom operator? operand left' value).run c := by
  induction left generalizing left' c value with
  | nil =>
    -- Nothing is left, so there is no operator to be found.
    have hc : c.rest = [] := List.length_eq_zero_iff.1 (Nat.le_zero.1 hl)
    have hb : c.pastBlanks = c := Cursor.pastBlanks_eq_self fun a ha => by simp [hc] at ha
    cases left' with
    | nil => rfl
    | cons a' left' =>
      rw [run_chainFrom_cons, hb, hc]
      rfl
  | cons a left ih =>
    cases left' with
    | nil =>
      have hc : c.rest = [] := List.length_eq_zero_iff.1 (Nat.le_zero.1 hl')
      have hb : c.pastBlanks = c := Cursor.pastBlanks_eq_self fun a ha => by simp [hc] at ha
      rw [run_chainFrom_cons, hb, hc]
      rfl
    | cons a' left' =>
      rw [run_chainFrom_cons, run_chainFrom_cons]
      split
      · rfl
      · rename_i operator ho
        refine run_bind_congr fun z c' hc' => ih ?_ ?_ z
        · exact Nat.le_of_lt_succ (Nat.lt_of_lt_of_le (length_rest_chainLink_lt h ho hc') hl)
        · exact Nat.le_of_lt_succ (Nat.lt_of_lt_of_le (length_rest_chainLink_lt h ho hc') hl')

/-- What a chain does next. -/
theorem run_chainTail (h : Progresses operand) (value : Binary64) (c : Cursor) :
    (chainTail operator? operand value).run c =
      match c.pastBlanks.rest.head?.bind operator? with
      | none => .ok value c.pastBlanks
      | some operator =>
        (chainLink operand value c.pastBlanks.offset operator >>=
          chainTail operator? operand).run (c.pastBlanks.forward 1) := by
  have hcount : (chainTail operator? operand value).run c =
      (chainFrom operator? operand (' ' :: c.rest) value).run c :=
    run_chainFrom_congr h (Nat.le_refl _) (Nat.le_succ _) value
  rw [hcount, run_chainFrom_cons]
  split
  · rfl
  · rename_i operator ho
    exact run_bind_congr fun z c' hc' =>
      run_chainFrom_congr h (Nat.le_of_lt (length_rest_chainLink_lt h ho hc')) (Nat.le_refl _) z

/-- What holds of the first operand, and is kept by every link, holds of a chain. It
    ends past the blanks, where no operator of its table stands. -/
theorem ends_chain (h : Progresses operand) {c : Cursor} {I : Binary64 → Cursor → Prop}
    {E : Located → Cursor → Prop} (hfirst : Ends (operand.run c) I E)
    (hlink : ∀ value c₁ operator, I value c₁ →
      c₁.pastBlanks.rest.head?.bind operator? = some operator →
      Ends ((chainLink operand value c₁.pastBlanks.offset operator).run (c₁.pastBlanks.forward 1))
        I E) :
    Ends ((chain operator? operand).run c)
      (fun value c' => ∃ c₁, I value c₁ ∧ c' = c₁.pastBlanks ∧
        c'.rest.head?.bind operator? = none) E := by
  rw [chain_eq]
  refine hfirst.bind fun value c₁ h₁ => ?_
  -- The induction is on what is left of the text before each link.
  generalize hn : c₁.rest.length = n
  induction n using Nat.strongRecOn generalizing value c₁ with
  | ind n ih =>
    rw [run_chainTail h]
    split
    · rename_i hnone
      exact ⟨c₁, h₁, rfl, hnone⟩
    · rename_i operator ho
      exact (hlink value c₁ operator h₁ ho).bind_of_run
        (fun value' c₂ hr h₂ => ih _ (hn ▸ length_rest_chainLink_lt h ho hr) value' c₂ h₂ rfl)
        fun _ _ he => he

end Chain

end Reader

end Calculator
