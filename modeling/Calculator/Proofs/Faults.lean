import Calculator.Function
import Calculator.Operator

/-!
# Faults of computations

What can go wrong when a value is computed, said completely for each way to compute
one: an operator, a power, and a named function. None of it has to do with how the
expression is written (`Fault.isSyntactic`).
-/

namespace Calculator

/-- The faults of what is written. The others are about values, or about room. -/
def Fault.isSyntactic : Fault → Bool
  | unexpectedEnd | unexpectedCharacter _ | unclosed _ | uncalled _ | malformedNumber => true
  | divisionByZero | moduloByZero | domain .. | unknownFunction .. | undefinedPower ..
  | overflow | nestingTooDeep => false

variable {m : Elementary} {x y : Binary64} {fault : Fault}

/-- The faults of what is written, apart from a point without digits. -/
theorem isSyntactic_of_kind (h : fault.kind ∈ [.unexpectedEnd, .invalidExpression,
    .missingClosingParenthesis, .missingOpeningParenthesis]) :
    fault.isSyntactic = true ∧ fault ≠ .malformedNumber := by
  cases fault with
  | unexpectedEnd | unexpectedCharacter _ | unclosed _ | uncalled _ => exact ⟨rfl, nofun⟩
  | malformedNumber | divisionByZero | moduloByZero | domain _ _ _ | unknownFunction _ _
  | undefinedPower _ _ | overflow | nestingTooDeep =>
    rw [Fault.kind] at h
    exact absurd h (by decide)

theorem eq_malformedNumber_of_kind (h : fault.kind = .invalidNumber) :
    fault = .malformedNumber := by
  cases fault with
  | malformedNumber => rfl
  | _ => exact absurd h nofun

theorem eq_nestingTooDeep_of_kind (h : fault.kind = .nestingTooDeep) :
    fault = .nestingTooDeep := by
  cases fault with
  | nestingTooDeep => rfl
  | _ => exact absurd h nofun

theorem eq_of_checkFinite_error (h : checkFinite x = .error fault) :
    x.isInfinite = true ∧ fault = .overflow := by
  rw [checkFinite] at h
  split at h
  · rename_i hx
    exact ⟨hx, (Except.error.inj h).symm⟩
  · exact absurd h nofun

/-- An operation fails on a zero divisor, on an infinite dividend, or with too large a
    result. -/
theorem eq_of_apply_error {o : Operator} (h : o.apply x y = .error fault) :
    (o = .div ∧ y.isZero = true ∧ fault = .divisionByZero) ∨
      (o = .mod ∧ y.isZero = true ∧ fault = .moduloByZero) ∨
      (o = .mod ∧ x.isInfinite = true ∧ fault = .domain "Modulo of infinite value" "fmod" x) ∨
      fault = .overflow := by
  rw [Operator.apply] at h
  cases hr : o.result x y with
  | ok z =>
    rw [hr] at h
    exact .inr (.inr (.inr (eq_of_checkFinite_error h).2))
  | error fault' =>
    rw [hr] at h
    obtain rfl : fault' = fault := Except.error.inj h
    cases o with
    | add | sub | mul => exact absurd hr nofun
    | div =>
      rw [Operator.result] at hr
      split at hr
      · rename_i hy
        exact .inl ⟨rfl, hy, (Except.error.inj hr).symm⟩
      · exact absurd hr nofun
    | mod =>
      rw [Operator.result] at hr
      split at hr
      · rename_i hy
        exact .inr (.inl ⟨rfl, hy, (Except.error.inj hr).symm⟩)
      · rename_i hy
        rw [modulo] at hr
        split at hr
        · rename_i hx
          refine .inr (.inr (.inl ⟨rfl, ?_, (Except.error.inj hr).symm⟩))
          simp only [hy, Bool.false_and, Bool.or_false, Bool.and_eq_true] at hx
          exact hx.1
        · exact absurd hr nofun

/-- A power fails if it is no number, or too large. -/
theorem eq_of_power_error (h : power m x y = .error fault) :
    fault = .undefinedPower x y ∨ fault = .overflow := by
  rw [power] at h
  split at h
  · dsimp only at h
    split at h
    · exact .inl (Except.error.inj h).symm
    · split at h
      · rw [← Except.error.inj h]
        split
        · exact .inl rfl
        · exact .inr rfl
      · exact absurd h nofun
  · exact absurd h nofun

/-- A result is refused if it is no number, or infinite for a finite argument. -/
theorem eq_of_settle_error {f : Function} (h : f.settle x y = .error fault) :
    (f.mayOverflow = true ∧ fault = .overflow) ∨
      (fault = f.undefinedAt x ∧
        (y.isNaN = true ∨ f.mayOverflow = false ∧ y.isInfinite = true)) := by
  rw [Function.settle] at h
  split at h
  · rename_i hy
    exact .inr ⟨(Except.error.inj h).symm, .inl hy⟩
  · split at h
    · rename_i hy
      rw [Bool.and_eq_true] at hy
      cases hf : f.mayOverflow with
      | true =>
        rw [hf, if_pos rfl] at h
        exact .inl ⟨rfl, (Except.error.inj h).symm⟩
      | false =>
        rw [hf, if_neg Bool.false_ne_true] at h
        exact .inr ⟨(Except.error.inj h).symm, .inr ⟨rfl, hy.1⟩⟩
    · exact absurd h nofun

/-- A function fails on what is no number, outside its domain, or with its result. -/
theorem eq_of_function_error {f : Function} (h : f.apply m x = .error fault) :
    (x.isNaN = true ∧ fault = f.undefinedAt x) ∨
      (∃ d, f.domain? = some d ∧ d.accepts x = false ∧ fault = .domain d.message f.name x) ∨
      (f.accepts x = true ∧ f.settle x (f.compute m x) = .error fault) := by
  rw [Function.apply] at h
  split at h
  · rename_i hx
    exact .inl ⟨hx, (Except.error.inj h).symm⟩
  · rw [Function.accepts]
    cases hd : f.domain? with
    | none =>
      rw [hd] at h
      exact .inr (.inr ⟨rfl, h⟩)
    | some d =>
      rw [hd] at h
      cases ha : d.accepts x with
      | true =>
        dsimp only at h
        rw [ha, if_pos rfl] at h
        exact .inr (.inr ⟨ha, h⟩)
      | false =>
        dsimp only at h
        rw [ha, if_neg Bool.false_ne_true] at h
        exact .inr (.inl ⟨d, rfl, ha, (Except.error.inj h).symm⟩)

/-- A call fails if its name is not known, or as the function does. -/
theorem eq_of_applyNamed_error {name : String} (h : applyNamed m name x = .error fault) :
    fault = .unknownFunction name Function.names ∨
      ∃ f, Function.ofName? name = some f ∧ f.apply m x = .error fault := by
  rw [applyNamed, lookupFunction] at h
  cases hf : Function.ofName? name with
  | none =>
    rw [hf] at h
    exact .inl (Except.error.inj h).symm
  | some f =>
    rw [hf] at h
    exact .inr ⟨f, rfl, h⟩

/-! ## No computation finds fault with what is written -/

theorem isSyntactic_of_checkFinite (h : checkFinite x = .error fault) :
    fault.isSyntactic = false := by
  rw [(eq_of_checkFinite_error h).2]
  rfl

theorem isSyntactic_of_apply {o : Operator} (h : o.apply x y = .error fault) :
    fault.isSyntactic = false := by
  rcases eq_of_apply_error h with ⟨_, _, rfl⟩ | ⟨_, _, rfl⟩ | ⟨_, _, rfl⟩ | rfl <;> rfl

theorem isSyntactic_of_power (h : power m x y = .error fault) : fault.isSyntactic = false := by
  rcases eq_of_power_error h with rfl | rfl <;> rfl

theorem isSyntactic_of_applyNamed {name : String} (h : applyNamed m name x = .error fault) :
    fault.isSyntactic = false := by
  rcases eq_of_applyNamed_error h with rfl | ⟨f, _, hf⟩
  · rfl
  · rcases eq_of_function_error hf with ⟨_, rfl⟩ | ⟨d, _, _, rfl⟩ | ⟨_, hs⟩
    · rfl
    · rfl
    · rcases eq_of_settle_error hs with ⟨_, rfl⟩ | ⟨rfl, _⟩ <;> rfl

/-! ## No computation is too deeply nested -/

theorem ne_nestingTooDeep_of_checkFinite (h : checkFinite x = .error fault) :
    fault ≠ .nestingTooDeep := by
  rw [(eq_of_checkFinite_error h).2]
  exact nofun

theorem ne_nestingTooDeep_of_apply {o : Operator} (h : o.apply x y = .error fault) :
    fault ≠ .nestingTooDeep := by
  rcases eq_of_apply_error h with ⟨_, _, rfl⟩ | ⟨_, _, rfl⟩ | ⟨_, _, rfl⟩ | rfl <;> exact nofun

theorem ne_nestingTooDeep_of_power (h : power m x y = .error fault) : fault ≠ .nestingTooDeep := by
  rcases eq_of_power_error h with rfl | rfl <;> exact nofun

theorem ne_nestingTooDeep_of_applyNamed {name : String} (h : applyNamed m name x = .error fault) :
    fault ≠ .nestingTooDeep := by
  rcases eq_of_applyNamed_error h with rfl | ⟨f, _, hf⟩
  · exact nofun
  · rcases eq_of_function_error hf with ⟨_, rfl⟩ | ⟨d, _, _, rfl⟩ | ⟨_, hs⟩
    · exact nofun
    · exact nofun
    · rcases eq_of_settle_error hs with ⟨_, rfl⟩ | ⟨rfl, _⟩ <;> exact nofun

end Calculator
