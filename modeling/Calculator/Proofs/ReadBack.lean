import Calculator.Proofs.Completeness
import Calculator.Proofs.Figures

/-!
# Printed results are read back

A result that is printed in the fixed form is a numeral, with a minus before it if it is
negative, so it is an expression; and with seventeen digits or more, its value is the result
again, to the last bit and with its sign. In the scientific form a numeral is followed by the
power of ten, which is no part of any expression: the text is refused at the `e`.

The two forms are read alike up to there. What follows the numeral is the end or an `e`, and
neither goes on with a number, a power or a chain (`run_expression_of_factor`).
-/

namespace Calculator

open Grammar

namespace Reader

variable {m : Elementary} {frames j k : Nat} {n : Numeral} {x : Binary64} {r : List Char}
  (hr : ∀ a, r.head? = some a → a = 'e')
include hr

/-- There is no blank to pass. -/
theorem pastBlanks_of_power : (Cursor.mk j r).pastBlanks = ⟨j, r⟩ :=
  Cursor.pastBlanks_eq_self fun a ha => by
    rw [hr a ha]
    rfl

theorem run_primary_numeral (hx : n.value = .ok x) :
    (read m .primary (frames + 1)).run ⟨k, n.chars ++ r⟩ = .ok x ⟨k + n.chars.length, r⟩ := by
  have hdigit : ∀ a, r.head? = some a → a.isDigit = false := fun a ha => by
    rw [hr a ha]
    rfl
  have hpoint : r.head? ≠ some '.' := fun h => absurd (hr _ h) (by decide)
  have hgives := gives_number n hdigit hpoint k
  rw [hx] at hgives
  rw [run_primary_number m rfl]
  exact hgives

variable (frames) in
/-- A numeral is a factor of its own. -/
theorem run_factor_numeral (hx : n.value = .ok x) :
    (read m .factor (frames + 2)).run ⟨k, n.chars ++ r⟩ = .ok x ⟨k + n.chars.length, r⟩ := by
  -- Neither an `e` nor the end is the sign of a power.
  have hsign : powerSign.run ⟨k + n.chars.length, r⟩ = .ok false ⟨k + n.chars.length, r⟩ := by
    rw [run_powerSign, if_neg, if_neg]
    · rintro ⟨h, _⟩
      rw [← List.head?_eq_getElem?] at h
      exact absurd (hr _ h) (by decide)
    · exact fun h => absurd (hr _ h) (by decide)
  have hfactor : (read m .factor (frames + 2)).run ⟨k, n.chars ++ r⟩ =
      (powered m (frames + 1)).run ⟨k, n.chars ++ r⟩ :=
    run_factor_append m (p := .number n) ⟨[], fun _ h => absurd h List.not_mem_nil⟩ rfl
  have hprimary : (primary m (frames + 1)).run ⟨k, n.chars ++ r⟩ =
      .ok x ⟨k + n.chars.length, r⟩ := run_primary_numeral hr hx
  rw [hfactor, powered, run_bind_of_ok hprimary, run_skipBlanks_bind, pastBlanks_of_power hr,
    raised, run_position_bind, run_bind_of_ok hsign]
  rfl

/-- A chain is its first operand. -/
theorem run_chain_of_operand {operator? : Char → Option Operator} {operand : Reader Binary64}
    (hp : Progresses operand) (hnone : operator? 'e' = none) {c : Cursor}
    (h : operand.run c = .ok x ⟨j, r⟩) : (chain operator? operand).run c = .ok x ⟨j, r⟩ := by
  have hnext : r.head?.bind operator? = none := by
    cases ha : r.head? with
    | none => rfl
    | some a =>
      rw [hr a ha]
      exact hnone
  rw [chain_eq, run_bind_of_ok h, run_chainTail hp, pastBlanks_of_power hr, hnext]

/-- An expression is its first factor. -/
theorem run_expression_of_factor {c : Cursor}
    (h : (read m .factor frames).run c = .ok x ⟨j, r⟩) :
    (read m .expression (frames + 2)).run c = .ok x ⟨j, r⟩ :=
  run_chain_of_operand hr (progresses_read m (frames + 1) .term) rfl
    (run_chain_of_operand hr (progresses_read m frames .factor) rfl h)

variable (frames) in
/-- A numeral, with or without a minus before it, is an expression. -/
theorem run_expression_signed (hx : n.value = .ok x) (negative : Bool) :
    (read m .expression (frames + 5)).run ⟨0, (if negative then ['-'] else []) ++ n.chars ++ r⟩ =
      .ok (if negative then -x else x)
        ⟨((if negative then ['-'] else []) ++ n.chars).length, r⟩ := by
  refine run_expression_of_factor hr ?_
  cases negative with
  | false =>
    have hrun := run_factor_numeral (m := m) (k := 0) (frames + 1) hr hx
    rwa [Nat.zero_add] at hrun
  | true =>
    have hrun := run_factor_numeral (m := m) (k := 1) frames hr hx
    have hpast : (Cursor.mk 0 ('-' :: (n.chars ++ r))).pastBlanks =
        ⟨0, '-' :: (n.chars ++ r)⟩ := rfl
    show (read m .factor (frames + 3)).run ⟨0, '-' :: (n.chars ++ r)⟩ = _
    rw [run_factor, hpast, if_neg (List.cons_ne_nil _ _), if_pos (by rfl)]
    show (read m .factor (frames + 2) >>= fun x => pure (-x)).run ⟨1, n.chars ++ r⟩ = _
    rw [run_bind_of_ok hrun, run_pure, Nat.add_comm]
    rfl

end Reader

namespace Evaluator

variable (v : Evaluator) (hframes : 5 ≤ v.frames) {n : Numeral} {x : Binary64}
include hframes

/-- The sign that is written for a number. -/
def signChars (negative : Bool) : List Char := if negative then ['-'] else []

/-- A numeral with a sign is worth its value, with the sign. -/
theorem evaluate_numeral (hx : n.value = .ok x) (negative : Bool) :
    v.evaluate (String.ofList (signChars negative ++ n.chars)) =
      .ok (if negative then -x else x) := by
  obtain ⟨frames, hframes⟩ := Nat.exists_eq_add_of_le' hframes
  have hrun := Reader.run_expression_signed (m := v.machine) (r := []) frames nofun hx negative
  rw [List.append_nil] at hrun
  have hwhole : (Reader.whole v.machine (frames + 5)).run
      (Cursor.start (String.ofList (signChars negative ++ n.chars))) =
        .ok (if negative then -x else x) ⟨(signChars negative ++ n.chars).length, []⟩ := by
    rw [Cursor.start, String.toList_ofList]
    exact Reader.run_bind_of_ok hrun _
  rw [evaluate, hframes, hwhole]

/-- A power of ten after a numeral is refused where it begins. -/
theorem evaluate_numeral_power (hx : n.value = .ok x) (negative : Bool) (r : List Char) :
    ∃ f, v.evaluate (String.ofList (signChars negative ++ n.chars ++ 'e' :: r)) = .error f ∧
      f.kind = .invalidExpression ∧ f.position = (signChars negative ++ n.chars).length := by
  obtain ⟨frames, hframes⟩ := Nat.exists_eq_add_of_le' hframes
  have hrun := Reader.run_expression_signed (m := v.machine) (r := 'e' :: r) frames
    (fun a ha => (Option.some.inj ha).symm) hx negative
  have hwhole : (Reader.whole v.machine (frames + 5)).run
      (Cursor.start (String.ofList (signChars negative ++ n.chars ++ 'e' :: r))) =
        .error ⟨.unexpectedCharacter (some 'e'), (signChars negative ++ n.chars).length⟩
          ⟨(signChars negative ++ n.chars).length, 'e' :: r⟩ := by
    rw [Cursor.start, String.toList_ofList]
    exact Reader.run_bind_of_ok hrun _
  rw [evaluate, hframes, hwhole]
  exact ⟨_, rfl, rfl, rfl⟩

end Evaluator

/-! ## Printed results -/

/-- There is no `e` in a numeral, with or without a sign. -/
theorem not_mem_signed (n : Numeral) (negative : Bool) :
    'e' ∉ Evaluator.signChars negative ++ n.chars := by
  have hdigits (ds : Digits) : 'e' ∉ ds.1 := fun h => absurd (ds.2 _ h) (by decide)
  have hsign : 'e' ∉ Evaluator.signChars negative := by cases negative <;> decide
  refine fun h => (List.mem_append.1 h).elim hsign fun h => ?_
  cases n with
  | whole digits _ => exact hdigits digits h
  | pointed digits fraction _ =>
    rcases List.mem_append.1 h with h | h
    · exact hdigits digits h
    · exact hdigits fraction ((List.mem_cons.1 h).resolve_left (by decide))

theorem checkFinite_of_isFinite {x : Binary64} (h : x.isFinite = true) : checkFinite x = .ok x := by
  rw [checkFinite, Binary64.isInfinite_eq_false h]
  rfl

attribute [local instance (2000)] instPowNat in
/-- A finite number is printed with a precision of seventeen or more. If the text is in the
    scientific form, it is refused at its `e`; otherwise it is read back as the number, with
    its sign. -/
theorem Evaluator.evaluate_format (v : Evaluator) (hframes : 5 ≤ v.frames) (x : Binary64)
    (hx : x.isFinite = true) (precision : Int) (hlow : 17 ≤ precision)
    (hhigh : precision < 2 ^ (31 : Nat)) :
    ∃ text, x.format precision = .ok text ∧
      if 'e' ∈ text.toList then
        ∃ f, v.evaluate text = .error f ∧ f.kind = .invalidExpression ∧
          f.position = text.toList.idxOf 'e'
      else v.evaluate text = .ok x := by
  have hdigits := significantDigits_of_pos (show 1 ≤ precision by omega) hhigh
  cases x with
  | nan => exact absurd hx nofun
  | infinite s => exact absurd hx nofun
  | finite s k =>
    let d := (Decimal.exact k).roundTo precision.toNat
    let l := Layout.rounded precision.toNat
    have hformat : (Binary64.finite s k).format precision =
        .ok (String.ofList (signChars s ++ l.chars d)) := by
      rw [Binary64.format, hdigits]
      cases s <;> rfl
    have hfigures : ∀ c ∈ d.figures, c.isDigit = true := fun _ => Decimal.isDigit_of_mem_figures
    refine ⟨_, hformat, ?_⟩
    rw [String.toList_ofList, Layout.chars]
    split
    -- In the fixed form, the value of the numeral is that of the rounded decimal.
    · obtain ⟨n, hchars, hvalue⟩ :=
        Layout.exists_numeral_fixed hfigures d.figures_ne_nil l d.magnitude
      have hread : n.value = .ok (.finite false k) := by
        rw [Numeral.value, Decimal.toBinary64_of_value_eq (n := precision.toNat) (by omega)
          (hvalue.trans d.value_eq_figures.symm)]
        rfl
      rw [hchars, if_neg (not_mem_signed n s), v.evaluate_numeral hframes hread]
      cases s <;> rfl
    -- In the scientific form, the numeral must have a value for the `e` to be reached.
    · obtain ⟨n, hchars, hlt⟩ :=
        Layout.exists_numeral_scientific hfigures d.figures_ne_nil d.magnitude
      have hread : n.value = .ok _ :=
        checkFinite_of_isFinite (Decimal.isFinite_toBinary64_of_lt hlt)
      obtain ⟨f, hf, hkind, hposition⟩ := v.evaluate_numeral_power hframes hread s
        ((if d.magnitude < 0 then '-' else '+') ::
          (Nat.toDigits 10 d.magnitude.natAbs).leftpad 2 '0')
      rw [hchars, Layout.power, ← List.append_assoc, if_pos (List.mem_append_right _ (.head _)),
        List.idxOf_append_of_notMem (not_mem_signed n s), List.idxOf_cons_self]
      exact ⟨f, hf, hkind, hposition⟩

/-- The number nearest to minus a tenth is read back. The least number is printed in the
    scientific form, and refused. -/
theorem Evaluator.evaluate_format_minusTenth :
    let v : Evaluator := { machine := .plain }
    (∃ x : Binary64, x.isFinite = true ∧ x.format 17 = .ok "-0.10000000000000001" ∧
      v.evaluate "-0.10000000000000001" = .ok x) ∧
    ∃ x : Binary64, x.isFinite = true ∧ x.format 17 = .ok "4.9406564584124654e-324" ∧
      ∃ f, v.evaluate "4.9406564584124654e-324" = .error f ∧ f.kind = .invalidExpression ∧
        f.position = 18 := by
  dsimp only
  constructor
  · let x : Binary64 := .finite true ⟨4591870180066957722, by decide⟩
    have hformat : x.format 17 = .ok "-0.10000000000000001" := by decide +kernel
    obtain ⟨text, htext, hread⟩ :=
      evaluate_format { machine := .plain } (by decide) x rfl 17 (by decide) (by decide)
    obtain rfl := Except.ok.inj (htext.symm.trans hformat)
    exact ⟨x, rfl, hformat, hread⟩
  · let x : Binary64 := .finite false ⟨1, by decide⟩
    have hformat : x.format 17 = .ok "4.9406564584124654e-324" := by decide +kernel
    obtain ⟨text, htext, hread⟩ :=
      evaluate_format { machine := .plain } (by decide) x rfl 17 (by decide) (by decide)
    obtain rfl := Except.ok.inj (htext.symm.trans hformat)
    exact ⟨x, rfl, hformat, hread⟩

end Calculator
