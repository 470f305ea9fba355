import Calculator.Proofs.Levels
import Calculator.Proofs.Results
import Calculator.Proofs.Tracing

/-!
# Everything is finite

No value that an evaluation computes is infinite or no number, and neither is any operand
of an operation that it does, whether it comes to a result or fails. So the faults of an
infinite dividend, and of a function that has no number for an argument of its domain,
are never met.

One invariant carries this through all readers (`Keeps`): what is on record has finite
operands, values are finite, and domain faults are of refused arguments. Values come from
numbers, which are checked when they are read, and from operations; a minus and
parentheses keep them finite.
-/

namespace Calculator

/-- On a regular machine a fault is no domain fault, or that of a refused argument. -/
def Fault.Explained (m : Elementary) (fault : Fault) : Prop :=
  m.Regular → fault.kind = .domainError → fault.Refused

theorem Fault.explained_of_kind {m : Elementary} {fault : Fault}
    (h : fault.kind ≠ .domainError) : fault.Explained m := fun _ hkind => absurd hkind h

/-- A decimal is near to a number. -/
theorem Decimal.isNaN_toBinary64 (negative : Bool) (d : Decimal) :
    (d.toBinary64 negative).isNaN = false := by
  rw [toBinary64]
  cases d.exponent with
  | ofNat e => exact Binary64.isNaN_nearest _ _ _
  | negSucc e => exact Binary64.isNaN_nearest _ _ _

namespace Reader

variable (m : Elementary)

/-- Literals are finite. -/
theorem ends_literal_isFinite (start : Nat) (whole fraction : List Char) (c : Cursor) :
    Ends ((literal start whole fraction).run c) (fun x _ => x.isFinite = true)
      fun e _ => e.fault.Explained m := by
  rw [literal]
  split
  · exact Fault.explained_of_kind fun hkind => by cases hkind
  · refine ends_valueAt (fun x hx => isFinite_of_checkFinite (Decimal.isNaN_toBinary64 _ _) hx)
      fun fault hfault => Fault.explained_of_kind ?_
    rw [(eq_of_checkFinite_error hfault).2]
    intro hkind
    cases hkind

theorem ends_number_isFinite (c : Cursor) :
    Ends (number.run c) (fun x _ => x.isFinite = true) fun e _ => e.fault.Explained m := by
  rw [run_number]
  dsimp only
  split
  · exact ends_literal_isFinite m _ _ _ _
  · exact ends_literal_isFinite m _ _ _ _

/-- A parenthesis that is missing is no domain fault. -/
theorem ends_expect_explained (a : Char) {fault : Fault} (h : fault.kind ≠ .domainError)
    (c : Cursor) :
    Ends ((expect a fault).run c) (fun _ _ => True) fun e _ => e.fault.Explained m := by
  rw [run_expect]
  split
  · trivial
  · exact Fault.explained_of_kind h

end Reader

namespace Tracer

open Reader

variable {α β : Type} {m : Elementary}

/-- The operands on record are finite. -/
def Recorded (s : Cursor × List Operation) : Prop := ∀ p ∈ s.2, p.OnFinite

/-- With a finite record, a tracer gives values of the property `Q` and explained faults,
    and the record stays finite. -/
def Keeps (m : Elementary) (Q : α → Prop) (t : Tracer α) : Prop :=
  ∀ s, Recorded s → match t.run s with
    | .ok a s' => Q a ∧ Recorded s'
    | .error e s' => e.fault.Explained m ∧ Recorded s'

/-- The values are finite. -/
abbrev KeepsFinite (m : Elementary) (t : Tracer Binary64) : Prop :=
  Keeps m (fun x => x.isFinite = true) t

variable {Q : α → Prop} {R : β → Prop}

theorem Keeps.bind {t : Tracer α} {f : α → Tracer β} (h : Keeps m Q t)
    (hf : ∀ a, Q a → Keeps m R (f a)) : Keeps m R (t >>= f) := by
  intro s hs
  have ht := h s hs
  rw [run_bind]
  cases hr : t.run s with
  | ok a s' =>
    rw [hr] at ht
    exact hf a ht.1 s' ht.2
  | error e s' =>
    rw [hr] at ht
    exact ht

theorem keeps_pure {a : α} (h : Q a) : Keeps m Q (pure a) := fun _ hs => ⟨h, hs⟩

theorem Keeps.get {f : Cursor × List Operation → Tracer β} (h : ∀ s, Keeps m R (f s)) :
    Keeps m R (get >>= f) := fun s hs => h s s hs

/-- A reader that does no operation leaves the record as it is. -/
theorem keeps_quiet {r : Reader α}
    (h : ∀ c, Ends (r.run c) (fun a _ => Q a) fun e _ => e.fault.Explained m) :
    Keeps m Q (quiet r) := by
  intro s hs
  have hr := h s.1
  show (match quiet r s with
    | .ok a s' => Q a ∧ Recorded s'
    | .error e s' => e.fault.Explained m ∧ Recorded s')
  rw [quiet]
  cases hx : r.run s.1 with
  | ok a c =>
    rw [hx] at hr
    exact ⟨hr, hs⟩
  | error e c =>
    rw [hx] at hr
    exact ⟨hr, hs⟩

/-- A reader that always gives a value. -/
theorem keeps_quiet_of_ok {r : Reader α} (h : ∀ c, ∃ a c', r.run c = .ok a c') :
    Keeps m (fun _ => True) (quiet r) := by
  refine keeps_quiet fun c => ?_
  obtain ⟨a, c', hr⟩ := h c
  rw [hr]
  trivial

theorem keeps_fail {fault : Fault} (h : fault.kind ≠ .domainError) :
    Keeps m Q (quiet (Reader.fail fault)) := keeps_quiet fun _ => Fault.explained_of_kind h

theorem keeps_unexpected : Keeps m Q (quiet Reader.unexpected) :=
  keeps_quiet fun c => by
    rw [run_unexpected]
    exact Fault.explained_of_kind nofun

theorem keeps_skipBlanks : Keeps m (fun _ => True) (quiet Reader.skipBlanks) :=
  keeps_quiet_of_ok fun _ => ⟨_, _, rfl⟩

theorem keeps_position : Keeps m (fun _ => True) (quiet Reader.position) :=
  keeps_quiet_of_ok fun _ => ⟨_, _, rfl⟩

theorem keeps_skip (a : Char) : Keeps m (fun _ => True) (quiet (Reader.skip a)) :=
  keeps_quiet_of_ok fun c => by
    rw [run_skip]
    split <;> exact ⟨_, _, rfl⟩

theorem keeps_powerSign : Keeps m (fun _ => True) (quiet Reader.powerSign) :=
  keeps_quiet_of_ok fun c => by
    rw [run_powerSign]
    split
    · exact ⟨_, _, rfl⟩
    · split <;> exact ⟨_, _, rfl⟩

/-- An operation on finite operands is put on record, and has a finite result or an
    explained fault. -/
theorem keeps_perform (position : Int) {p : Operation} (hp : p.OnFinite) :
    KeepsFinite m (perform m position p) := by
  intro s hs
  have hrecord : Recorded (s.1, s.2 ++ [p]) := by
    intro q hq
    rcases List.mem_append.1 hq with hq | hq
    · exact hs q hq
    · rwa [List.mem_singleton.1 hq]
  refine keeps_quiet (fun c => ?_) _ hrecord
  exact ends_valueAt (fun x hx => Operation.isFinite_of_outcome hp hx)
    fun fault hfault hm hkind => Operation.refused_of_outcome hm hp hfault hkind

section Chain

variable {operator? : Char → Option Operator} {operand : Tracer Binary64}

theorem keeps_chainFrom (h : KeepsFinite m operand) (left : List Char)
    {value : Binary64} (hvalue : value.isFinite = true) :
    KeepsFinite m (chainFrom m operator? operand left value) := by
  induction left generalizing value with
  | nil => exact keeps_pure hvalue
  | cons a left ih =>
    refine keeps_skipBlanks.bind fun _ _ => ?_
    refine (keeps_quiet_of_ok fun _ => ⟨_, _, rfl⟩).bind fun next _ => ?_
    cases next.bind operator? with
    | none => exact keeps_pure hvalue
    | some operator =>
      refine keeps_position.bind fun start _ => ?_
      refine (keeps_quiet_of_ok fun _ => ⟨_, _, rfl⟩).bind fun _ _ => h.bind fun y hy => ?_
      -- The left operand is the value so far, which was checked when it was made.
      have hp : (Operation.operator operator value y).OnFinite := by
        intro x hx
        rcases List.mem_cons.1 hx with rfl | hx
        · exact hvalue
        · rwa [List.mem_singleton.1 hx]
      exact (keeps_perform start hp).bind fun z hz => ih hz

theorem keeps_chain (h : KeepsFinite m operand) :
    KeepsFinite m (chain m operator? operand) :=
  h.bind fun _ hfirst => .get fun s => keeps_chainFrom h s.1.rest hfirst

end Chain

variable (m)

/-- The five tracers at once, as they call each other with one frame less. -/
theorem keeps_levels (frames : Nat) :
    KeepsFinite m (expression m frames) ∧ KeepsFinite m (term m frames) ∧
      KeepsFinite m (factor m frames) ∧ KeepsFinite m (primary m frames) ∧
      KeepsFinite m (call m frames) := by
  induction frames with
  | zero =>
    have h : KeepsFinite m (quiet Reader.tooDeep) := keeps_fail nofun
    exact ⟨h, h, h, h, h⟩
  | succ frames ih =>
    -- Only a minus and a group pass a value on unchecked, and neither makes it infinite.
    obtain ⟨hexpression, hterm, hfactor, hprimary, hcall⟩ := ih
    have hexpect (a : Char) (fault : Fault) (h : fault.kind ≠ .domainError) :
        Keeps m (fun _ => True) (quiet (Reader.expect a fault)) :=
      keeps_quiet (ends_expect_explained m a h)
    refine ⟨keeps_chain hterm, keeps_chain hfactor, ?_, ?_, ?_⟩
    · refine keeps_skipBlanks.bind fun _ _ => ?_
      refine (keeps_quiet_of_ok fun _ => ⟨_, _, rfl⟩).bind fun ended _ => ?_
      cases ended
      · refine (keeps_skip '-').bind fun minus _ => ?_
        cases minus
        · refine hprimary.bind fun base hbase => keeps_skipBlanks.bind fun _ _ =>
            keeps_position.bind fun start _ => keeps_powerSign.bind fun sign _ => ?_
          cases sign
          · exact keeps_pure hbase
          · refine hfactor.bind fun y hy => keeps_perform start fun x hx => ?_
            rcases List.mem_cons.1 hx with rfl | hx
            · exact hbase
            · rwa [List.mem_singleton.1 hx]
        · exact hfactor.bind fun x hx => keeps_pure ((Binary64.isFinite_neg x).trans hx)
      · exact keeps_fail nofun
    · refine (keeps_quiet_of_ok fun _ => ⟨_, _, rfl⟩).bind fun next _ => ?_
      cases next with
      | none => exact keeps_unexpected
      | some a =>
        dsimp only
        split
        · refine (keeps_quiet_of_ok fun _ => ⟨_, _, rfl⟩).bind fun _ _ =>
            hexpression.bind fun x hx => (hexpect ')' (.unclosed false) nofun).bind fun _ _ =>
              keeps_pure hx
        · split
          · exact hcall
          · split
            · exact keeps_quiet (ends_number_isFinite m)
            · exact keeps_unexpected
    · refine keeps_position.bind fun start _ =>
        (keeps_quiet_of_ok fun _ => ⟨_, _, rfl⟩).bind fun name _ =>
          (hexpect '(' (.uncalled (String.ofList name)) nofun).bind fun _ _ =>
            hexpression.bind fun x hx => (hexpect ')' (.unclosed true) nofun).bind fun _ _ =>
              keeps_perform start fun y hy => ?_
      rwa [List.mem_singleton.1 hy]

theorem keeps_whole (frames : Nat) : KeepsFinite m (whole m frames) := by
  refine (keeps_levels m frames).1.bind fun x hx => keeps_skipBlanks.bind fun _ _ =>
    (keeps_quiet_of_ok fun _ => ⟨_, _, rfl⟩).bind fun ended _ => ?_
  cases ended
  · exact keeps_unexpected
  · exact keeps_pure hx

end Tracer

namespace Evaluator

/-- An evaluation does its operations on finite operands, has a finite value if any, and
    on a regular machine meets a domain fault only where `sqrt`, `ln` or `log10` refuses
    its argument: never for an infinite dividend, nor because the machine has no number. -/
theorem isFinite_of_evaluate (v : Evaluator) (s : String) :
    (v.traced s).1 = v.evaluate s ∧
      (∀ p ∈ (v.traced s).2, ∀ x ∈ p.operands, x.isFinite = true) ∧
      (∀ x, v.evaluate s = .ok x → x.isFinite = true) ∧
      (v.machine.Regular → ∀ f, v.evaluate s = .error f →
        (f.kind = .domainError → ∃ g ∈ [Function.sqrt, .ln, .log10], ∃ d x,
          g.domain? = some d ∧ d.accepts x = false ∧ f.fault = .domain d.message g.name x) ∧
        (∀ name x, f.fault ≠ .domain "Modulo of infinite value" name x) ∧
        ∀ (g : Function) (x : Binary64), f.fault ≠ g.undefinedAt x) := by
  have hkeeps := Tracer.keeps_whole v.machine v.frames (Cursor.start s, []) (List.forall_mem_nil _)
  rw [← v.traced_fst, traced]
  cases hrun : (Tracer.whole v.machine v.frames).run (Cursor.start s, []) with
  | ok x s' =>
    rw [hrun] at hkeeps
    refine ⟨rfl, hkeeps.2, fun y hy => ?_, fun _ f hf => ?_⟩
    · rw [← Except.ok.inj hy]
      exact hkeeps.1
    · cases hf
  | error e s' =>
    rw [hrun] at hkeeps
    refine ⟨rfl, hkeeps.2, fun y hy => ?_, fun hm f hf => ?_⟩
    · cases hy
    · obtain rfl : v.failure s e = f := Except.error.inj hf
      have hrefused : e.fault.kind = .domainError → e.fault.Refused := hkeeps.1 hm
      refine ⟨fun hkind => ?_, fun name x h => ?_, fun g x h => ?_⟩
      · obtain ⟨g, d, x, hd, _, houtside, hfault⟩ := hrefused hkind
        exact ⟨g, (Function.of_domain? hd).1, d, x, hd, houtside, hfault⟩
      · have hfault : e.fault = .domain "Modulo of infinite value" name x := h
        exact (hrefused (by rw [hfault]; rfl)).ne.1 name x hfault
      · have hfault : e.fault = g.undefinedAt x := h
        exact (hrefused (by rw [hfault]; rfl)).ne.2 g x hfault

/-- The logarithm refuses what the cosine gives here. -/
theorem isFinite_of_evaluate_logarithm :
    Elementary.plain.Regular ∧
      ({ machine := .plain } : Evaluator).evaluate "2 + ln(cos(0) - 1)" = .error
        { fault := .domain "Natural logarithm of non-positive number" "ln" (.zero false),
          text := "2 + ln(cos(0) - 1)", position := 4 } ∧
      ∃ g ∈ [Function.sqrt, .ln, .log10], ∃ d x, g.domain? = some d ∧ d.accepts x = false ∧
        Fault.domain "Natural logarithm of non-positive number" "ln" (.zero false) =
          .domain d.message g.name x := by
  have h : ({ machine := .plain } : Evaluator).evaluate "2 + ln(cos(0) - 1)" = .error
      { fault := .domain "Natural logarithm of non-positive number" "ln" (.zero false),
        text := "2 + ln(cos(0) - 1)", position := 4 } :=
    faultOf?_eq_some_iff.1 (by decide +kernel)
  obtain ⟨_, _, _, hdomain⟩ := isFinite_of_evaluate { machine := .plain } "2 + ln(cos(0) - 1)"
  exact ⟨Elementary.plain_regular, h, (hdomain Elementary.plain_regular _ h).1 rfl⟩

end Evaluator

end Calculator
