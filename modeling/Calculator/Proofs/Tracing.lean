import Calculator.Evaluator
import Calculator.Proofs.Operations
import Calculator.Proofs.Run

/-!
# Readers that keep a record

Values are computed while an expression is read, and a reader that fails has computed
some values before. To say something about all of them, the readers are given again with
a record of the operations that they do, each with its operands, in the order in which
they are done (`Tracer`). A record is kept, too, when a reader fails.

Without the record they are the readers (`Tracer.erases_whole`), so a traced evaluation is
an evaluation (`Evaluator.traced_fst`).
-/

namespace Calculator

/-- A reader with a record of operations. -/
abbrev Tracer := EStateM Located (Cursor × List Operation)

namespace Tracer

variable {α β : Type}

/-- A reader that does no operation. -/
def quiet (r : Reader α) : Tracer α := fun s =>
  match r.run s.1 with
  | .ok a c => .ok a (c, s.2)
  | .error e c => .error e (c, s.2)

/-- Puts an operation on record and does it. -/
def perform (m : Elementary) (position : Int) (p : Operation) : Tracer Binary64 := do
  modify fun s => (s.1, s.2 ++ [p])
  quiet (Reader.valueAt position (p.outcome m))

variable (m : Elementary)

/-- Goes on with a chain. -/
def chainFrom (operator? : Char → Option Operator) (operand : Tracer Binary64) :
    (left : List Char) → (value : Binary64) → Tracer Binary64
  | [], value => return value
  | _ :: left, value => do
    quiet Reader.skipBlanks
    match (← quiet (Reader.peek 0)).bind operator? with
    | none => return value
    | some operator =>
      let start ← quiet Reader.position
      quiet (Reader.advance 1)
      let next ← operand
      let value ← perform m start (.operator operator value next)
      chainFrom operator? operand left value

/-- Operands joined by the operators of a table. -/
def chain (operator? : Char → Option Operator) (operand : Tracer Binary64) :
    Tracer Binary64 := do
  let first ← operand
  chainFrom m operator? operand (← get).1.rest first

mutual

/-- Terms joined by `+` and `-`. -/
def expression : (frames : Nat) → Tracer Binary64
  | 0 => quiet Reader.tooDeep
  | frames + 1 => chain m Operator.additive? (term frames)
  termination_by structural frames => frames

/-- Factors joined by `*`, `/` and `%`. -/
def term : (frames : Nat) → Tracer Binary64
  | 0 => quiet Reader.tooDeep
  | frames + 1 => chain m Operator.multiplicative? (factor frames)
  termination_by structural frames => frames

/-- A negated factor, or a primary with or without an exponent. -/
def factor : (frames : Nat) → Tracer Binary64
  | 0 => quiet Reader.tooDeep
  | frames + 1 => do
    quiet Reader.skipBlanks
    if ← quiet Reader.atEnd then quiet (Reader.fail .unexpectedEnd)
    else if ← quiet (Reader.skip '-') then return -(← factor frames)
    else
      let base ← primary frames
      quiet Reader.skipBlanks
      let start ← quiet Reader.position
      if ← quiet Reader.powerSign then
        let exponent ← factor frames
        perform m start (.power base exponent)
      else return base
  termination_by structural frames => frames

/-- A number, an expression in parentheses, or a call. -/
def primary : (frames : Nat) → Tracer Binary64
  | 0 => quiet Reader.tooDeep
  | frames + 1 => do
    match ← quiet (Reader.peek 0) with
    | none => quiet Reader.unexpected
    | some c =>
      if c = '(' then
        quiet (Reader.advance 1)
        let value ← expression frames
        quiet (Reader.expect ')' (.unclosed false))
        return value
      else if c.isAlpha then call frames
      else if c.isDigit || c = '.' then quiet Reader.number
      else quiet Reader.unexpected
  termination_by structural frames => frames

/-- A name and its argument in parentheses. -/
def call : (frames : Nat) → Tracer Binary64
  | 0 => quiet Reader.tooDeep
  | frames + 1 => do
    let start ← quiet Reader.position
    let name := String.ofList (← quiet (Reader.takeWhile Char.isAlphanum))
    quiet (Reader.expect '(' (.uncalled name))
    let argument ← expression frames
    quiet (Reader.expect ')' (.unclosed true))
    perform m start (.call name argument)
  termination_by structural frames => frames

end

/-- A whole text. -/
def whole (frames : Nat) : Tracer Binary64 := do
  let value ← expression m frames
  quiet Reader.skipBlanks
  if ← quiet Reader.atEnd then return value else quiet Reader.unexpected

/-! ## The record makes no difference -/

/-- Forgets the record. -/
def forget : EStateM.Result Located (Cursor × List Operation) α → Reader.Outcome α
  | .ok a s => .ok a s.1
  | .error e s => .error e s.1

/-- Without its record, the tracer does what the reader does. -/
def Erases (t : Tracer α) (r : Reader α) : Prop :=
  ∀ s, forget (t.run s) = r.run s.1

variable {m}

theorem erases_quiet (r : Reader α) : Erases (quiet r) r := by
  intro s
  show forget (quiet r s) = _
  rw [quiet]
  cases r.run s.1 <;> rfl

theorem erases_pure (a : α) : Erases (pure a) (pure a) := fun _ => rfl

theorem erases_perform (position : Int) (p : Operation) :
    Erases (perform m position p) (Reader.valueAt position (p.outcome m)) :=
  fun s => erases_quiet _ (s.1, s.2 ++ [p])

theorem Erases.bind {t : Tracer α} {r : Reader α} {f : α → Tracer β} {g : α → Reader β}
    (h : Erases t r) (hf : ∀ a, Erases (f a) (g a)) : Erases (t >>= f) (r >>= g) := by
  intro s
  rw [Reader.run_bind, Reader.run_bind, ← h s]
  cases t.run s with
  | ok a s' => exact hf a s'
  | error e s' => rfl

theorem Erases.get {f : Cursor × List Operation → Tracer β} {g : Cursor → Reader β}
    (h : ∀ s, Erases (f s) (g s.1)) : Erases (get >>= f) (get >>= g) :=
  fun s => h s s

theorem erases_chainFrom {operator? : Char → Option Operator} {operand : Tracer Binary64}
    {operand' : Reader Binary64} (h : Erases operand operand') (left : List Char)
    (value : Binary64) :
    Erases (chainFrom m operator? operand left value)
      (Reader.chainFrom operator? operand' left value) := by
  induction left generalizing value with
  | nil => exact erases_pure value
  | cons a left ih =>
    refine (erases_quiet _).bind fun _ => (erases_quiet _).bind fun next => ?_
    cases next.bind operator? with
    | none => exact erases_pure value
    | some operator =>
      exact (erases_quiet _).bind fun start => (erases_quiet _).bind fun _ =>
        h.bind fun y => (erases_perform _ (.operator operator value y)).bind ih

theorem erases_chain {operator? : Char → Option Operator} {operand : Tracer Binary64}
    {operand' : Reader Binary64} (h : Erases operand operand') :
    Erases (chain m operator? operand) (Reader.chain operator? operand') :=
  h.bind fun first => .get fun s => erases_chainFrom h s.1.rest first

variable (m)

/-- The five tracers at once, as they call each other with one frame less. -/
theorem erases_levels (frames : Nat) :
    Erases (expression m frames) (Reader.expression m frames) ∧
      Erases (term m frames) (Reader.term m frames) ∧
      Erases (factor m frames) (Reader.factor m frames) ∧
      Erases (primary m frames) (Reader.primary m frames) ∧
      Erases (call m frames) (Reader.call m frames) := by
  induction frames with
  | zero =>
    have h : Erases (quiet Reader.tooDeep : Tracer Binary64) Reader.tooDeep := erases_quiet _
    exact ⟨h, h, h, h, h⟩
  | succ frames ih =>
    obtain ⟨hexpression, hterm, hfactor, hprimary, hcall⟩ := ih
    refine ⟨erases_chain hterm, erases_chain hfactor, ?_, ?_, ?_⟩
    · refine (erases_quiet _).bind fun _ => (erases_quiet _).bind fun ended => ?_
      cases ended
      · refine (erases_quiet _).bind fun minus => ?_
        cases minus
        · refine hprimary.bind fun base => (erases_quiet _).bind fun _ =>
            (erases_quiet _).bind fun start => (erases_quiet _).bind fun sign => ?_
          cases sign
          · exact erases_pure base
          · exact hfactor.bind fun y => erases_perform _ (.power base y)
        · exact hfactor.bind fun x => erases_pure (-x)
      · exact erases_quiet (Reader.fail .unexpectedEnd)
    · refine (erases_quiet _).bind fun next => ?_
      cases next with
      | none => exact erases_quiet _
      | some c =>
        dsimp only
        split
        · exact (erases_quiet _).bind fun _ => hexpression.bind fun value =>
            (erases_quiet _).bind fun _ => erases_pure value
        · split
          · exact hcall
          · split
            · exact erases_quiet _
            · exact erases_quiet _
    · exact (erases_quiet _).bind fun start => (erases_quiet _).bind fun name =>
        (erases_quiet _).bind fun _ => hexpression.bind fun x =>
          (erases_quiet _).bind fun _ => erases_perform _ (.call _ x)

theorem erases_whole (frames : Nat) : Erases (whole m frames) (Reader.whole m frames) := by
  refine (erases_levels m frames).1.bind fun value => (erases_quiet _).bind fun _ =>
    (erases_quiet _).bind fun ended => ?_
  cases ended
  · exact erases_quiet Reader.unexpected
  · exact erases_pure value

end Tracer

namespace Evaluator

/-- The outcome of an evaluation, and the operations that it does, in their order. -/
def traced (v : Evaluator) (text : String) : Except Failure Binary64 × List Operation :=
  match (Tracer.whole v.machine v.frames).run (Cursor.start text, []) with
  | .ok x s => (.ok x, s.2)
  | .error e s => (.error (v.failure text e), s.2)

/-- A traced evaluation is an evaluation. -/
theorem traced_fst (v : Evaluator) (text : String) : (v.traced text).1 = v.evaluate text := by
  have h := Tracer.erases_whole v.machine v.frames (Cursor.start text, [])
  rw [traced, evaluate, ← h]
  cases (Tracer.whole v.machine v.frames).run (Cursor.start text, []) <;> rfl

end Evaluator

end Calculator
