import Calculator.Binary64.Arithmetic
import Calculator.Proofs.Faults
import Calculator.Proofs.Machines

/-!
# Operations on finite numbers

What is computed in an evaluation is computed by operations: an operator, a power or a
named function, each with its operands. On finite operands an operation has a finite
result or none (`Operation.isFinite_of_outcome`), on every machine. On a regular machine
it never fails for want of a number: its domain faults are those of arguments that a
function refuses before it computes anything (`Operation.refused_of_outcome`).
-/

namespace Calculator

/-- An operation and its operands. -/
inductive Operation
  | operator (o : Operator) (left right : Binary64)
  | power (base exponent : Binary64)
  | call (name : String) (argument : Binary64)
  deriving DecidableEq, Repr

namespace Operation

/-- The operands, from left to right. -/
def operands : Operation → List Binary64
  | operator _ x y | power x y => [x, y]
  | call _ x => [x]

/-- The result, or why there is none. -/
def outcome (m : Elementary) : Operation → Except Fault Binary64
  | operator o x y => o.apply x y
  | power x y => Calculator.power m x y
  | call name x => applyNamed m name x

/-- Whether all operands are finite. -/
def OnFinite (p : Operation) : Prop := ∀ x ∈ p.operands, x.isFinite = true

end Operation

/-- A fault of a function with a domain, for a finite argument outside of it. -/
def Fault.Refused (fault : Fault) : Prop :=
  ∃ g : Function, ∃ d x, g.domain? = some d ∧ x.isFinite = true ∧ d.accepts x = false ∧
    fault = .domain d.message g.name x

/-! ## The last rank -/

attribute [local instance (2000)] instPowNat

/-- How often the steps are doubled in the last binade. -/
def lastDoublings : Nat := 2045

/-- The units of the last rank. -/
def lastUnits : Nat := (2 * binade - 1) * 2 ^ lastDoublings

theorem units_le_lastUnits (rank : Rank) : units rank ≤ lastUnits := by
  have hrank : rank.val < 2047 * binade := rank.isLt
  have hlast : lastDoublings = 2045 := rfl
  rw [units, significand, doublings, lastUnits]
  unfold binade at hrank ⊢
  refine Nat.mul_le_mul ?_ (Nat.pow_le_pow_right Nat.two_pos (by omega))
  split <;> omega

theorem units_pos {rank : Nat} (h : rank ≠ 0) : 0 < units rank := by
  rw [units, significand]
  unfold binade
  refine Nat.mul_pos ?_ (Nat.pow_pos Nat.two_pos)
  split <;> omega

/-- Below the last magnitude of a binade, a natural is not rounded past that binade. -/
theorem nearestRank_lt {n l : Nat} (hl : 0 < l) (h : n < (2 * binade - 1) * 2 ^ l) :
    nearestRank n 1 < (l + 2) * binade := by
  rw [nearestRank, Nat.div_one, Nat.one_mul]
  generalize hs : n.log2 - 52 = s
  have hround := roundDiv_eq_or n (2 ^ s)
  have hquotient : n / 2 ^ s < 2 * binade := by
    refine Nat.div_lt_of_lt_mul ?_
    rw [binade, ← Nat.pow_add_one', ← Nat.pow_add]
    exact Nat.lt_of_lt_of_le Nat.lt_log2_self (Nat.pow_le_pow_right Nat.two_pos (by omega))
  have hlast : l ≤ s → s = l ∧ n / 2 ^ s < 2 * binade - 1 := by
    intro hge
    -- The natural is at least as large as the first magnitude of the binade.
    have hpow : 2 ^ (s + 52) ≤ n := by
      have hself := Nat.log2_self_le (n := n) (by rintro rfl; simp at hs; omega)
      rwa [show n.log2 = s + 52 by omega] at hself
    have hlt : 2 ^ (s + 52) < 2 ^ (53 + l) := by
      refine Nat.lt_of_le_of_lt hpow (Nat.lt_of_lt_of_le h ?_)
      rw [Nat.pow_add]
      exact Nat.mul_le_mul_right _ (by decide)
    have hle : s + 52 < 53 + l := (Nat.pow_lt_pow_iff_right (by decide)).1 hlt
    obtain rfl : s = l := by omega
    exact ⟨rfl, Nat.div_lt_of_lt_mul (Nat.lt_of_lt_of_eq h (Nat.mul_comm _ _))⟩
  have hbinade : 0 < binade := by decide
  generalize n / 2 ^ s = q at *
  generalize binade = b at *
  rw [Nat.add_mul]
  rcases Nat.lt_or_ge s l with hlt | hge
  · have hsteps : (s + 1) * b ≤ l * b := Nat.mul_le_mul_right b hlt
    rw [Nat.add_mul] at hsteps
    omega
  · obtain ⟨rfl, hq⟩ := hlast hge
    omega

theorem nearestRank_lt_rankCount {n : Nat} (h : n < lastUnits) : nearestRank n 1 < rankCount := by
  have hcount : (lastDoublings + 2) * binade = rankCount := rfl
  rw [← hcount]
  rw [lastUnits] at h
  exact nearestRank_lt (by decide) h

/-! ## Numbers -/

namespace Binary64

variable {x y : Binary64}

theorem isFinite_of_isNaN_of_isInfinite (hn : x.isNaN = false) (hi : x.isInfinite = false) :
    x.isFinite = true := by
  rw [isFinite_eq, hn, hi]
  rfl

theorem isInfinite_eq_false (h : x.isFinite = true) : x.isInfinite = false := by
  cases x with
  | finite s k => rfl
  | nan => rfl
  | infinite s => exact absurd h Bool.false_ne_true

theorem isNaN_eq_false (h : x.isFinite = true) : x.isNaN = false := by
  cases x with
  | finite s k => rfl
  | infinite s => rfl
  | nan => exact absurd h Bool.false_ne_true

theorem isNaN_sub (hx : x.isFinite = true) (hy : y.isFinite = true) :
    (x - y).isNaN = false :=
  isNaN_add hx ((isFinite_neg y).trans hy)

/-- A finite quotient by a number that is no zero is a number. -/
theorem isNaN_div (hx : x.isFinite = true) (hy : y.isFinite = true) (hzero : y.isZero = false) :
    (x / y).isNaN = false := by
  cases x with
  | nan | infinite s => exact absurd hx Bool.false_ne_true
  | finite s a =>
    cases y with
    | nan | infinite t => exact absurd hy Bool.false_ne_true
    | finite t b =>
      have hb : b.val ≠ 0 := by simpa [isZero] using hzero
      show (div (finite s a) (finite t b)).isNaN = false
      rw [div, if_neg hb]
      exact isNaN_nearest _ _ _

/-- A remainder is smaller than the divisor, so it is finite. -/
theorem isFinite_mod (hx : x.isFinite = true) (hy : y.isFinite = true)
    (hzero : y.isZero = false) : (x % y).isFinite = true := by
  cases x with
  | nan | infinite s => exact absurd hx Bool.false_ne_true
  | finite s a =>
    cases y with
    | nan | infinite t => exact absurd hy Bool.false_ne_true
    | finite t b =>
      have hb : b.val ≠ 0 := by simpa [isZero] using hzero
      have hlt : units a % units b < lastUnits :=
        Nat.lt_of_lt_of_le (Nat.mod_lt _ (units_pos hb)) (units_le_lastUnits b)
      show (fmod (finite s a) (finite t b)).isFinite = true
      rw [fmod, if_neg hb, nearest, dif_pos (nearestRank_lt_rankCount hlt)]
      rfl

theorem isFinite_abs (x : Binary64) : x.abs.isFinite = x.isFinite := by
  cases x <;> rfl

end Binary64

variable {m : Elementary} {x y z : Binary64} {fault : Fault}

/-! ## Results -/

/-- What is checked and not refused is finite, if it is a number at all. -/
theorem isFinite_of_checkFinite (hx : x.isNaN = false) (h : checkFinite x = .ok z) :
    z.isFinite = true := by
  have hz : z = x := by
    rw [checkFinite] at h
    split at h
    · cases h
    · exact (Except.ok.inj h).symm
  rw [hz]
  rw [hz] at h
  exact Binary64.isFinite_of_isNaN_of_isInfinite hx (isInfinite_of_checkFinite h)

theorem isNaN_of_result {o : Operator} (hx : x.isFinite = true) (hy : y.isFinite = true)
    (h : o.result x y = .ok z) : z.isNaN = false := by
  cases o with
  | add =>
    rw [← Except.ok.inj h]
    exact Binary64.isNaN_add hx hy
  | sub =>
    rw [← Except.ok.inj h]
    exact Binary64.isNaN_sub hx hy
  | mul =>
    rw [← Except.ok.inj h]
    exact Binary64.isNaN_mul hx hy
  | div =>
    rw [Operator.result] at h
    cases hzero : y.isZero with
    | true =>
      rw [hzero, if_pos rfl] at h
      cases h
    | false =>
      rw [hzero, if_neg Bool.false_ne_true] at h
      rw [← Except.ok.inj h]
      exact Binary64.isNaN_div hx hy hzero
  | mod =>
    rw [Operator.result] at h
    cases hzero : y.isZero with
    | true =>
      rw [hzero, if_pos rfl] at h
      cases h
    | false =>
      rw [hzero, if_neg Bool.false_ne_true, modulo, Binary64.isInfinite_eq_false hx, hzero,
        if_neg (by simp)] at h
      rw [← Except.ok.inj h]
      exact Binary64.isNaN_eq_false (Binary64.isFinite_mod hx hy hzero)

theorem isFinite_of_apply {o : Operator} (hx : x.isFinite = true) (hy : y.isFinite = true)
    (h : o.apply x y = .ok z) : z.isFinite = true := by
  rw [Operator.apply] at h
  cases hr : o.result x y with
  | ok r =>
    rw [hr] at h
    exact isFinite_of_checkFinite (isNaN_of_result hx hy hr) h
  | error fault =>
    rw [hr] at h
    cases h

/-- The result of a power is looked at, whatever the machine makes of it. -/
theorem isFinite_of_power (hx : x.isFinite = true) (hy : y.isFinite = true)
    (h : power m x y = .ok z) : z.isFinite = true := by
  rw [power, hx, hy, Bool.and_self, if_pos rfl] at h
  dsimp only at h
  cases hn : (m.pow x y).isNaN with
  | true =>
    rw [hn, if_pos rfl] at h
    cases h
  | false =>
    cases hi : (m.pow x y).isInfinite with
    | true =>
      rw [hn, hi, if_neg Bool.false_ne_true, if_pos rfl] at h
      cases h
    | false =>
      rw [hn, hi, if_neg Bool.false_ne_true, if_neg Bool.false_ne_true] at h
      rw [← Except.ok.inj h]
      exact Binary64.isFinite_of_isNaN_of_isInfinite hn hi

/-- So is the result of a function. -/
theorem isFinite_of_settle {f : Function} (hx : x.isFinite = true) (h : f.settle x y = .ok z) :
    z.isFinite = true := by
  rw [Function.settle] at h
  cases hn : y.isNaN with
  | true =>
    rw [hn, if_pos rfl] at h
    cases h
  | false =>
    cases hi : y.isInfinite with
    | true =>
      rw [hn, hi, hx, if_neg Bool.false_ne_true, Bool.and_self, if_pos rfl] at h
      cases h
    | false =>
      rw [hn, hi, if_neg Bool.false_ne_true, Bool.false_and, if_neg Bool.false_ne_true] at h
      rw [← Except.ok.inj h]
      exact Binary64.isFinite_of_isNaN_of_isInfinite hn hi

/-- A function with a value has settled on it. -/
theorem settle_of_function {f : Function} (h : f.apply m x = .ok z) :
    f.settle x (f.compute m x) = .ok z := by
  rw [Function.apply] at h
  split at h
  · cases h
  · cases hd : f.domain? with
    | none =>
      rw [hd] at h
      exact h
    | some d =>
      rw [hd] at h
      dsimp only at h
      split at h
      · exact h
      · cases h

theorem isFinite_of_applyNamed {name : String} (hx : x.isFinite = true)
    (h : applyNamed m name x = .ok z) : z.isFinite = true := by
  rw [applyNamed, lookupFunction] at h
  cases hf : Function.ofName? name with
  | none =>
    rw [hf] at h
    cases h
  | some f =>
    rw [hf] at h
    exact isFinite_of_settle hx (settle_of_function h)

/-- On finite operands an operation has a finite result or none. -/
theorem Operation.isFinite_of_outcome {p : Operation} (hp : p.OnFinite)
    (h : p.outcome m = .ok z) : z.isFinite = true := by
  cases p with
  | operator o x y =>
    have hx := hp x List.mem_cons_self
    have hy := hp y (List.mem_cons_of_mem _ List.mem_cons_self)
    exact isFinite_of_apply hx hy h
  | power x y =>
    have hx := hp x List.mem_cons_self
    have hy := hp y (List.mem_cons_of_mem _ List.mem_cons_self)
    exact isFinite_of_power hx hy h
  | call name x => exact isFinite_of_applyNamed (hp x List.mem_cons_self) h

/-! ## Domain faults -/

/-- Where a function is defined, a regular machine has a number for it, and an infinite
    one only if the function may overflow. -/
theorem Elementary.Regular.compute (hm : m.Regular) {f : Function} (hx : x.isFinite = true)
    (hf : f.accepts x = true) :
    (f.compute m x).isNaN = false ∧
      (f.mayOverflow = false → (f.compute m x).isInfinite = false) := by
  have hfinite {y : Binary64} (hy : y.isFinite = true) :
      y.isNaN = false ∧ (f.mayOverflow = false → y.isInfinite = false) :=
    ⟨Binary64.isNaN_eq_false hy, fun _ => Binary64.isInfinite_eq_false hy⟩
  cases f with
  | abs => exact hfinite ((Binary64.isFinite_abs x).trans hx)
  | cos => exact hfinite (hm.cos x hx)
  | exp => exact ⟨hm.exp x hx, nofun⟩
  | ln => exact hfinite (hm.ln x hx hf)
  | log10 => exact hfinite (hm.log10 x hx hf)
  | sin => exact hfinite (hm.sin x hx)
  | sqrt => exact hfinite (hm.sqrt x hx hf)
  | tan => exact hfinite (hm.tan x hx)

theorem refused_of_function (hm : m.Regular) {f : Function} (hx : x.isFinite = true)
    (h : f.apply m x = .error fault) (hkind : fault.kind = .domainError) : fault.Refused := by
  rcases eq_of_function_error h with ⟨hn, _⟩ | ⟨d, hd, hrefused, rfl⟩ | ⟨hf, hsettle⟩
  · rw [Binary64.isNaN_eq_false hx] at hn
    exact absurd hn Bool.false_ne_true
  · exact ⟨f, d, x, hd, hx, hrefused, rfl⟩
  · obtain ⟨hn, hi⟩ := hm.compute hx hf
    rcases eq_of_settle_error hsettle with ⟨_, rfl⟩ | ⟨_, hn' | ⟨hoverflow, hi'⟩⟩
    · cases hkind
    · rw [hn] at hn'
      exact absurd hn' Bool.false_ne_true
    · rw [hi hoverflow] at hi'
      exact absurd hi' Bool.false_ne_true

/-- On a regular machine and finite operands, the only domain faults are those of
    arguments that a function refuses. -/
theorem Operation.refused_of_outcome (hm : m.Regular) {p : Operation} (hp : p.OnFinite)
    (h : p.outcome m = .error fault) (hkind : fault.kind = .domainError) : fault.Refused := by
  cases p with
  | operator o x y =>
    have hx := hp x List.mem_cons_self
    rcases eq_of_apply_error h with ⟨_, _, rfl⟩ | ⟨_, _, rfl⟩ | ⟨_, hi, _⟩ | rfl
    · cases hkind
    · cases hkind
    · rw [Binary64.isInfinite_eq_false hx] at hi
      exact absurd hi Bool.false_ne_true
    · cases hkind
  | power x y =>
    rcases eq_of_power_error h with rfl | rfl <;> cases hkind
  | call name x =>
    rcases eq_of_applyNamed_error h with rfl | ⟨f, _, hf⟩
    · cases hkind
    · exact refused_of_function hm (hp x List.mem_cons_self) hf hkind

/-- Three functions refuse arguments, each with a reason of its own. -/
theorem Function.of_domain? {g : Function} {d : Domain} (h : g.domain? = some d) :
    g ∈ [sqrt, ln, log10] ∧ d.message ∈ ["Square root of negative number",
      "Natural logarithm of non-positive number", "Logarithm of non-positive number"] := by
  cases g with
  | sqrt | ln | log10 =>
    rw [← Option.some.inj h]
    exact ⟨by decide, by decide⟩
  | abs | cos | exp | sin | tan => cases h

/-- An argument that is refused is neither an infinite dividend nor one for which the
    machine has no number. -/
theorem Fault.Refused.ne (h : fault.Refused) :
    (∀ name x, fault ≠ .domain "Modulo of infinite value" name x) ∧
      ∀ (g : Function) (x : Binary64), fault ≠ g.undefinedAt x := by
  obtain ⟨g, d, x, hd, _, _, rfl⟩ := h
  have hreason := (Function.of_domain? hd).2
  refine ⟨fun name x' h => ?_, fun g' x' h => ?_⟩
  · rw [(Fault.domain.inj h).1] at hreason
    exact absurd hreason (by decide)
  · rw [(Fault.domain.inj h).1] at hreason
    revert hreason
    cases g' <;> decide

/-! ## Faults of finite operands -/

/-- On finite operands an operator refuses a zero divisor, or its result is too large, which
    no remainder is. -/
theorem fault_of_apply {o : Operator} (hx : x.isFinite = true) (hy : y.isFinite = true)
    (h : o.apply x y = .error fault) :
    (o = .div ∧ fault = .divisionByZero) ∨ (o = .mod ∧ fault = .moduloByZero) ∨
      (o ≠ .mod ∧ fault = .overflow) := by
  rcases eq_of_apply_error h with ⟨ho, _, hfault⟩ | ⟨ho, _, hfault⟩ | ⟨_, hi, _⟩ | rfl
  · exact .inl ⟨ho, hfault⟩
  · exact .inr (.inl ⟨ho, hfault⟩)
  · rw [Binary64.isInfinite_eq_false hx] at hi
    exact absurd hi Bool.false_ne_true
  · refine .inr (.inr ⟨?_, rfl⟩)
    rintro rfl
    rw [Operator.apply, Operator.result] at h
    cases hzero : y.isZero with
    | true =>
      rw [hzero, if_pos rfl] at h
      cases h
    | false =>
      rw [hzero, if_neg Bool.false_ne_true, modulo, Binary64.isInfinite_eq_false hx, hzero,
        if_neg (by simp)] at h
      have hinfinite := (eq_of_checkFinite_error h).1
      rw [Binary64.isInfinite_eq_false (Binary64.isFinite_mod hx hy hzero)] at hinfinite
      exact absurd hinfinite Bool.false_ne_true

/-- A call of a finite argument fails because its name is not known, because the argument
    is refused, or because the exponential is too large. -/
theorem fault_of_applyNamed {name : String} (hx : x.isFinite = true)
    (h : applyNamed m name x = .error fault) :
    fault = .unknownFunction name Function.names ∨
      (∃ reason, fault = .domain reason name x ∧
        (m.Regular → ∃ g ∈ [Function.sqrt, .ln, .log10], name = g.name)) ∨
      (name = Function.exp.name ∧ fault = .overflow) := by
  rcases eq_of_applyNamed_error h with hfault | ⟨f, hf, happly⟩
  · exact .inl hfault
  · obtain rfl := Function.name_of_ofName? hf
    have hdomain (reason : String) (hfault : fault = .domain reason f.name x) :
        ∃ reason, fault = .domain reason f.name x ∧
          (m.Regular → ∃ g ∈ [Function.sqrt, .ln, .log10], f.name = g.name) := by
      refine ⟨reason, hfault, fun hm => ?_⟩
      obtain ⟨g, d, y, hd, _, _, hrefused⟩ :=
        refused_of_function hm hx happly (by rw [hfault]; rfl)
      exact ⟨g, (Function.of_domain? hd).1, (Fault.domain.inj (hfault.symm.trans hrefused)).2.1⟩
    rcases eq_of_function_error happly with ⟨_, hfault⟩ | ⟨d, _, _, hfault⟩ | ⟨_, hsettle⟩
    · exact .inr (.inl (hdomain _ hfault))
    · exact .inr (.inl (hdomain _ hfault))
    · rcases eq_of_settle_error hsettle with ⟨hexp, hfault⟩ | ⟨hfault, _⟩
      · refine .inr (.inr ⟨?_, hfault⟩)
        cases f with
        | exp => rfl
        | _ => exact absurd hexp Bool.false_ne_true
      · exact .inr (.inl (hdomain _ hfault))

end Calculator
