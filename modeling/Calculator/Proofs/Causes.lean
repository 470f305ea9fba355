import Calculator.Evaluator
import Calculator.Proofs.Levels
import Calculator.Proofs.Operations

/-!
# Where faults come from

A fault is one of what is written, or there was no room, or a number is too large to be
one, or an operation has no result (`Fault.Arises`). So what a report says beyond what is
written in the text is said by the operations, and those are known completely: the reason of
a domain fault is that of a domain, and the functions that are suggested are all there are.

This needs nothing of the machine, nor of the operands.
-/

namespace Calculator

/-- What can go wrong while a text is read. -/
inductive Fault.Arises (m : Elementary) : Fault → Prop
  | written {fault : Fault} (h : fault.isSyntactic = true) : Arises m fault
  | tooDeep : Arises m .nestingTooDeep
  | tooLarge : Arises m .overflow
  | operation {fault : Fault} (p : Operation) (h : p.outcome m = .error fault) : Arises m fault

namespace Reader

variable {α : Type} {m : Elementary} {frames : Nat}

/-- If there is a fault, it arises. -/
abbrev Arising (m : Elementary) (x : Outcome α) : Prop :=
  Ends x (fun _ _ => True) fun e _ => e.fault.Arises m

theorem arising_operation (position : Int) (p : Operation) (c : Cursor) :
    Arising m ((valueAt position (p.outcome m)).run c) :=
  ends_valueAt (fun _ _ => trivial) fun _ h => .operation p h

theorem arising_expect (a : Char) {fault : Fault} (h : fault.isSyntactic = true) (c : Cursor) :
    Arising m ((expect a fault).run c) := by
  rw [run_expect]
  split
  · trivial
  · exact .written h

/-- The sign of a power is there or not. -/
theorem arising_powerSign (c : Cursor) : Arising m (powerSign.run c) := by
  rw [run_powerSign]
  split
  · trivial
  · split <;> trivial

theorem arising_literal (start : Nat) (whole fraction : List Char) (c : Cursor) :
    Arising m ((literal start whole fraction).run c) := by
  rw [literal]
  split
  · exact .written rfl
  · refine ends_valueAt (fun _ _ => trivial) fun fault h => ?_
    rw [(eq_of_checkFinite_error h).2]
    exact .tooLarge

theorem arising_number (c : Cursor) : Arising m (number.run c) := by
  rw [run_number]
  dsimp only
  split <;> exact arising_literal _ _ _ _

theorem arising_chain {operator? : Char → Option Operator} {operand : Reader Binary64}
    (hp : Progresses operand) (h : ∀ c, Arising m (operand.run c)) (c : Cursor) :
    Arising m ((chain operator? operand).run c) :=
  (ends_chain hp (h c) fun value _ operator _ _ => (h _).bind fun y _ _ =>
    arising_operation _ (.operator operator value y) _).imp (fun _ _ _ => trivial) fun _ _ he => he

section Levels

variable (ih : ∀ l c, Arising m ((read m l frames).run c))
include ih

theorem arising_powered (c : Cursor) : Arising m ((powered m frames).run c) := by
  refine (ih .primary c).bind fun base c₁ _ => ?_
  rw [run_skipBlanks_bind, raised, run_position_bind]
  refine (arising_powerSign _).bind fun found c₂ _ => ?_
  cases found
  · trivial
  · exact (ih .factor c₂).bind fun y _ _ => arising_operation _ (.power base y) _

theorem arising_group (c : Cursor) : Arising m ((group m frames).run c) :=
  (ih .expression c).bind fun _ _ _ => (arising_expect ')' rfl _).bind fun _ _ _ => trivial

theorem arising_argument (start : Nat) (name : String) (c : Cursor) :
    Arising m ((argument m frames start name).run c) :=
  (arising_expect '(' rfl c).bind fun _ _ _ => (ih .expression _).bind fun x _ _ =>
    (arising_expect ')' rfl _).bind fun _ _ _ => arising_operation _ (.call name x) _

end Levels

variable (m) in
/-- On every level, faults arise. -/
theorem arising_read (frames : Nat) (l : Level) (c : Cursor) :
    Arising m ((read m l frames).run c) := by
  induction frames generalizing l c with
  | zero =>
    rw [read_zero, run_tooDeep]
    exact .tooDeep
  | succ frames ih =>
    cases l with
    | expression => exact arising_chain (progresses_read m frames .term) (ih .term) c
    | term => exact arising_chain (progresses_read m frames .factor) (ih .factor) c
    | factor =>
      rw [run_factor]
      split
      · exact .written rfl
      · split
        · exact (ih .factor _).bind fun _ _ _ => trivial
        · exact arising_powered ih _
    | primary =>
      rw [run_primary]
      split
      · exact .written rfl
      · split
        · exact arising_group ih _
        · split
          · exact ih .call c
          · split
            · exact arising_number c
            · exact .written rfl
    | call =>
      rw [run_call]
      exact arising_argument ih _ _ _

theorem arising_whole (frames : Nat) (c : Cursor) : Arising m ((whole m frames).run c) := by
  -- After an expression, only what is left of the text can be at fault.
  refine (arising_read m frames .expression c).bind fun x c₁ _ => ?_
  rw [run_skipBlanks_bind, run_atEnd_bind]
  cases c₁.pastBlanks.rest.isEmpty
  · exact .written rfl
  · trivial

end Reader

namespace Evaluator

variable {v : Evaluator} {s : String} {f : Failure}

/-- A failure is that of reading the whole text. -/
theorem exists_of_evaluate_error (h : v.evaluate s = .error f) :
    ∃ e c, (Reader.whole v.machine v.frames).run (Cursor.start s) = .error e c ∧
      f = v.failure s e := by
  rw [evaluate] at h
  cases hrun : (Reader.whole v.machine v.frames).run (Cursor.start s) with
  | ok x c =>
    rw [hrun] at h
    exact absurd h nofun
  | error e c =>
    rw [hrun] at h
    exact ⟨e, c, rfl, (Except.error.inj h).symm⟩

/-- The fault of a failure is one that arises. -/
theorem arises_of_evaluate_error (h : v.evaluate s = .error f) : f.fault.Arises v.machine := by
  obtain ⟨e, c, hrun, rfl⟩ := exists_of_evaluate_error h
  have hread := Reader.arising_whole (m := v.machine) v.frames (Cursor.start s)
  rwa [hrun] at hread

end Evaluator

end Calculator
