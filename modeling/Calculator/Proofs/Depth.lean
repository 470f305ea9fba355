import Mathlib.Control.Monad.Basic
import Calculator.Proofs.Completeness
import Calculator.Proofs.Machines
import Calculator.Proofs.Metering
import Calculator.Proofs.Nodes
import Calculator.Proofs.Results

/-!
# The depth of a sentence

The most frames that are in use at once while a sentence is read is the depth of its tree,
as long as it has a value. That many frames are enough (`gives_whole`). With fewer, the
nesting is too deep (`tooDeep_whole`): what is read before the deepest place has values, so
the reader gets there. A chain is as deep as the deepest of its operands, however many
there are.
-/

namespace Calculator

open Grammar

namespace Reader

variable (m : Elementary)

theorem tooDeep_read_zero (l : Level) (c : Cursor) : TooDeep ((read m l 0).run c) := by
  rw [read_zero]
  exact ⟨_, _, rfl⟩

section Chain
variable {operator? : Char → Option Operator} {operand : Reader Binary64}

/-- A chain with a value so far, whose next operand is too deep. -/
theorem ChainReads.tooDeep (hp : Progresses operand) {c : Cursor} {k : Nat} {s : List Char}
    {x : Binary64} (b : Blanks) {o : Operator} (ho : operator? o.char = some o)
    (h : ChainReads operator? operand c (.ok x) (Cursor.mk k (b.1 ++ o.char :: s)).pastBlanks)
    (hoperand : TooDeep (operand.run ⟨k + b.1.length + 1, s⟩)) :
    TooDeep ((chain operator? operand).run c) := by
  obtain ⟨p, c', hoperand⟩ := hoperand
  have hpast := Cursor.pastBlanks_append_cons k b.2 o.isBlank_char s
  obtain ⟨c'', hchain⟩ := h (fun _ => .error ⟨.nestingTooDeep, p⟩) c fun y => by
    refine ⟨c', ?_⟩
    rw [run_chainTail hp, Cursor.pastBlanks_pastBlanks, hpast, List.head?_cons, Option.bind_some,
      ho]
    exact run_bind_of_error (run_bind_of_error hoperand _) _
  exact ⟨p, c'', hchain⟩

end Chain

/-- A primary that begins with a name is read as a call. -/
theorem run_primary_name {frames k : Nat} {name : Name} {s r : List Char}
    (hs : s = name.chars ++ r) :
    (read m .primary (frames + 1)).run ⟨k, s⟩ = (read m .call frames).run ⟨k, s⟩ := by
  have hparen : name.first ≠ '(' := by
    intro h
    have := name.first_isAlpha
    rw [h] at this
    exact absurd this (by decide)
  rw [run_primary, hs]
  show (if name.first = '(' then _ else if name.first.isAlpha = true then _ else _) = _
  rw [if_neg hparen, if_pos name.first_isAlpha]

/-- An expression is too deep if its chain of terms is. -/
theorem tooDeep_expression_of_chain {e : Expression} {frames : Nat} {c : Cursor}
    (h : frames < e.depth)
    (hchain : ∀ f, f + 1 < e.depth →
      TooDeep ((chain Operator.additive? (read m .term f)).run c)) :
    TooDeep ((read m .expression frames).run c) := by
  cases frames with
  | zero => exact tooDeep_read_zero m .expression c
  | succ f => exact hchain f h

theorem tooDeep_term_of_chain {t : Term} {frames : Nat} {c : Cursor}
    (h : frames < t.depth)
    (hchain : ∀ f, f + 1 < t.depth →
      TooDeep ((chain Operator.multiplicative? (read m .factor f)).run c)) :
    TooDeep ((read m .term frames).run c) := by
  cases frames with
  | zero => exact tooDeep_read_zero m .term c
  | succ f => exact hchain f h

mutual

theorem tooDeep_chain_expression (e : Expression) {frames : Nat} (h : frames + 1 < e.depth)
    (k : Nat) {x : Binary64} (hx : e.denote m k = .ok x) {s r : List Char} (hs : s = e.chars ++ r)
    (hr : Follows .term r) :
    TooDeep ((chain Operator.additive? (read m .term frames)).run ⟨k, s⟩) := by
  cases e with
  | term t =>
    rw [Expression.depth] at h
    rw [chain_eq]
    exact (tooDeep_term_of_chain m (Nat.lt_of_succ_lt_succ h) fun f hf =>
      tooDeep_chain_term t hf k hx hs hr.factor).bind _
  | join e before o t =>
    have hrest : s = e.chars ++ (before.1 ++ o.1.char :: (t.chars ++ r)) := by
      rw [hs, Expression.chars]
      simp only [List.append_assoc, List.cons_append]
    obtain ⟨y, hy, hx⟩ := exists_of_bind_eq_ok hx
    obtain ⟨z, hz, _⟩ := exists_of_bind_eq_ok hx
    by_cases hdeep : frames + 1 < e.depth
    · exact tooDeep_chain_expression e hdeep k hy hrest (follows_additive before o _)
    · have ht : frames < t.depth := by rw [Expression.depth] at h; omega
      have he :=
        chainReads_expression m e (Nat.not_lt.1 hdeep) k hrest (follows_additive before o _)
      rw [hy] at he
      exact he.tooDeep (progresses_read m frames .term) before (Operator.additive?_char o)
        (tooDeep_term_of_chain m ht fun f hf => tooDeep_chain_term t hf _ hz rfl hr.factor)

theorem tooDeep_chain_term (t : Term) {frames : Nat} (h : frames + 1 < t.depth) (k : Nat)
    {x : Binary64} (hx : t.denote m k = .ok x) {s r : List Char} (hs : s = t.chars ++ r)
    (hr : Follows .factor r) :
    TooDeep ((chain Operator.multiplicative? (read m .factor frames)).run ⟨k, s⟩) := by
  cases t with
  | factor f =>
    rw [Term.depth] at h
    rw [chain_eq]
    exact (tooDeep_factor f (Nat.lt_of_succ_lt_succ h) k hx hs hr).bind _
  | join t before o f =>
    have hrest : s = t.chars ++ (before.1 ++ o.1.char :: (f.chars ++ r)) := by
      rw [hs, Term.chars]
      simp only [List.append_assoc, List.cons_append]
    obtain ⟨y, hy, hx⟩ := exists_of_bind_eq_ok hx
    obtain ⟨z, hz, _⟩ := exists_of_bind_eq_ok hx
    by_cases hdeep : frames + 1 < t.depth
    · exact tooDeep_chain_term t hdeep k hy hrest (follows_multiplicative before o f r)
    · have hf : frames < f.depth := by rw [Term.depth] at h; omega
      have ht := chainReads_term m t (Nat.not_lt.1 hdeep) k hrest
        (follows_multiplicative before o f r)
      rw [hy] at ht
      exact ht.tooDeep (progresses_read m frames .factor) before
        (Operator.multiplicative?_char o) (tooDeep_factor f hf _ hz rfl hr)

theorem tooDeep_factor (f : Factor) {frames : Nat} (h : frames < f.depth) (k : Nat)
    {x : Binary64} (hx : f.denote m k = .ok x) {s r : List Char} (hs : s = f.chars ++ r)
    (hr : Follows .factor r) : TooDeep ((read m .factor frames).run ⟨k, s⟩) := by
  cases frames with
  | zero => exact tooDeep_read_zero m .factor _
  | succ frames =>
    cases f with
    | neg before f =>
      rw [Factor.depth] at h
      rw [Factor.chars, List.append_assoc, List.cons_append] at hs
      obtain ⟨y, hy, _⟩ := exists_of_bind_eq_ok hx
      rw [run_factor, hs, Cursor.pastBlanks_append_cons k before.2 (by decide),
        if_neg (List.cons_ne_nil '-' _), if_pos (by rfl)]
      exact (tooDeep_factor f (Nat.lt_of_succ_lt_succ h) (k + before.1.length + 1) hy rfl hr).bind _
    | primary before p =>
      rw [Factor.depth] at h
      rw [Factor.chars, List.append_assoc] at hs
      rw [run_factor_append m before hs]
      exact (tooDeep_primary p (Nat.lt_of_succ_lt_succ h) _ hx rfl).bind _
    | power before base between sign exponent =>
      have hrest : s =
          before.1 ++ (base.chars ++ (between.1 ++ (sign.chars ++ (exponent.chars ++ r)))) := by
        rw [hs, Factor.chars]
        simp only [List.append_assoc]
      obtain ⟨y, hy, hx⟩ := exists_of_bind_eq_ok hx
      obtain ⟨z, hz, _⟩ := exists_of_bind_eq_ok hx
      have hsign := follows_sign between sign (exponent.chars ++ r)
      rw [run_factor_append m before hrest]
      by_cases hdeep : frames < base.depth
      · exact (tooDeep_primary base hdeep _ hy rfl).bind _
      · have hexponent : frames < exponent.depth := by rw [Factor.depth] at h; omega
        have hbase : (primary m frames).run _ = .ok y _ :=
          hy ▸ gives_primary m base (Nat.not_lt.1 hdeep) (k + before.1.length) rfl hsign
        rw [powered, run_bind_of_ok hbase, run_skipBlanks_bind, pastBlanks_sign, raised,
          run_position_bind, run_bind_of_ok (run_powerSign_append _ sign _)]
        exact (tooDeep_factor exponent hexponent _ hz rfl hr).bind _

theorem tooDeep_primary (p : Primary) {frames : Nat} (h : frames < p.depth) (k : Nat)
    {x : Binary64} (hx : p.denote m k = .ok x) {s r : List Char} (hs : s = p.chars ++ r) :
    TooDeep ((read m .primary frames).run ⟨k, s⟩) := by
  cases frames with
  | zero => exact tooDeep_read_zero m .primary _
  | succ frames =>
    cases p with
    | number n =>
      exact absurd h (Nat.not_lt.2 (Nat.le_add_left 1 frames))
    | group e before =>
      rw [Primary.depth] at h
      have hrest : s = '(' :: (e.chars ++ (before.1 ++ ')' :: r)) := by
        rw [hs, Primary.chars]
        simp only [List.append_assoc, List.cons_append, List.nil_append]
      have hclose := follows_close before r
      rw [run_primary, hrest]
      exact (tooDeep_expression_of_chain m (Nat.lt_of_succ_lt_succ h) fun f hf =>
        tooDeep_chain_expression e hf (k + 1) hx rfl hclose.term).bind _
    | call name between e before =>
      rw [Primary.depth] at h
      have hrest : s = name.chars ++ (between.1 ++ '(' :: (e.chars ++ (before.1 ++ ')' :: r))) := by
        rw [hs, Primary.chars]
        simp only [List.append_assoc, List.cons_append, List.nil_append]
      obtain ⟨y, hy, _⟩ := exists_of_bind_eq_ok hx
      have hclose := follows_close before r
      cases frames with
      | zero =>
        rw [run_primary_name m hrest]
        exact tooDeep_read_zero m .call _
      | succ frames =>
        have he := Nat.lt_of_succ_lt_succ (Nat.lt_of_succ_lt_succ h)
        rw [run_primary_call m between hrest, argument,
          run_bind_of_ok (run_expect_append (by decide) _ _ between _)]
        exact (tooDeep_expression_of_chain m he fun f hf =>
          tooDeep_chain_expression e hf _ hy rfl hclose.term).bind _
end


/-- A sentence with a value is too deep for fewer frames than its depth. -/
theorem tooDeep_whole {t : Sentence} {frames : Nat} (h : frames < t.depth) {x : Binary64}
    (hx : t.denote m = .ok x) : TooDeep ((whole m frames).run (Cursor.start t.text)) := by
  obtain ⟨e, after⟩ := t
  have hafter : Follows .expression after.1 := follows_blanks _ after
  have he : TooDeep ((read m .expression frames).run ⟨0, e.chars ++ after.1⟩) :=
    tooDeep_expression_of_chain m h fun f hf =>
      tooDeep_chain_expression m e hf 0 hx rfl hafter.term
  show TooDeep ((whole m frames).run ⟨0, (String.ofList (e.chars ++ after.1)).toList⟩)
  rw [String.toList_ofList]
  exact he.bind _

end Reader

namespace Evaluator

open Reader

/-- Without a limit on frames, an evaluation has one outcome and one count of the most
    frames that are in use at once. With that many frames or more the outcome is the same;
    with fewer the nesting is too deep, whatever it is. For a sentence with a value the count
    is the depth of its tree. -/
theorem evaluate_eq_unlimited (v : Evaluator) (s : String) :
    ∃ outcome peak, (∀ o k, v.Unlimited s o k ↔ o = outcome ∧ k = peak) ∧
      (∀ f, outcome = .error f → f.kind ≠ .nestingTooDeep) ∧
      (∀ frames, (peak ≤ frames → { v with frames }.evaluate s = outcome) ∧
        (frames < peak →
          ∃ f, { v with frames }.evaluate s = .error f ∧ f.kind = .nestingTooDeep)) ∧
      ∀ t : Sentence, t.text = s → ∀ x, t.denote v.machine = .ok x → peak = t.depth := by
  obtain ⟨x, c', peak, hmeter, hfit, hlimits⟩ := Meter.exists_whole v.machine (Cursor.start s)
  refine ⟨(Meter.result x).mapError (v.failure s), peak, fun o k => ⟨?_, ?_⟩, ?_,
    fun frames => ⟨?_, ?_⟩, ?_⟩
  · rintro ⟨unrolled, y, c, hy, rfl⟩
    obtain ⟨rfl, hrest⟩ := Prod.mk.inj ((hmeter _).1 ⟨unrolled, hy⟩)
    exact ⟨rfl, (Prod.mk.inj hrest).2⟩
  · rintro ⟨rfl, rfl⟩
    obtain ⟨unrolled, hy⟩ := (hmeter _).2 rfl
    exact ⟨unrolled, _, c', hy, rfl⟩
  · intro f hf hkind
    cases x with
    | ok a c => exact absurd hf nofun
    | error e c =>
      obtain rfl : v.failure s e = f := Except.error.inj hf
      have hfault : e.fault = .nestingTooDeep := eq_nestingTooDeep_of_kind hkind
      exact hfit ⟨e.position, c, by rw [← hfault]⟩
  · intro hpeak
    rw [evaluate_eq_result, (hlimits frames).1 hpeak]
    rfl
  · intro hpeak
    obtain ⟨p, c, hrun⟩ := (hlimits frames).2 hpeak
    exact ⟨v.failure s ⟨.nestingTooDeep, p⟩, by rw [evaluate_eq_result, hrun]; rfl, rfl⟩
  · rintro t rfl y hy
    refine Nat.le_antisymm (Nat.le_of_not_lt fun hlt => ?_) (Nat.le_of_not_lt fun hlt => ?_)
    · -- As many frames as the sentence is deep give its value.
      have hgives := gives_whole v.machine (Nat.le_refl t.depth)
      obtain ⟨p, c, hrun⟩ := (hlimits t.depth).2 hlt
      rw [hy, hrun] at hgives
      exact absurd hgives nofun
    · -- As many as were counted would not do for a deeper sentence.
      obtain ⟨p, c, hrun⟩ := tooDeep_whole v.machine hlt hy
      have hsame := (hlimits peak).1 (Nat.le_refl peak)
      rw [hrun] at hsame
      cases x with
      | ok a c => exact absurd hsame nofun
      | error e c' => exact hfit ⟨p, c', by rw [← Except.error.inj hsame]⟩

/-- The sentence `-cos(1 - 1 + 1)`. Its chain is no deeper than one of its numbers. -/
theorem exists_negatedCall :
    ∃ t : Sentence, t.text = "-cos(1 - 1 + 1)" ∧ t.depth = 10 ∧
      t.denote .plain = .ok (-.one) := by
  let none : Blanks := ⟨[], List.forall_mem_nil _⟩
  let space : Blanks := ⟨[' '], List.forall_mem_singleton.2 rfl⟩
  let one (before : Blanks) : Term :=
    .factor (.primary before (.number (.whole ⟨['1'], by simp⟩ (List.cons_ne_nil _ _))))
  let chain : Expression :=
    .join (.join (.term (one none)) space ⟨.sub, .inr rfl⟩ (one space)) space ⟨.add, .inl rfl⟩
      (one space)
  let cosine : Primary := .call ⟨'c', ['o', 's'], rfl, by simp⟩ none chain none
  exact ⟨⟨.term (.factor (.neg none (.primary none cosine))), none⟩, rfl, rfl,
    by decide +kernel⟩

/-- Ten frames are in use within the argument, so nine are too few. -/
theorem evaluate_eq_unlimited_negatedCall :
    ({ machine := .plain } : Evaluator).Unlimited "-cos(1 - 1 + 1)" (.ok (-.one)) 10 ∧
      ∃ f, ({ machine := .plain, frames := 9 } : Evaluator).evaluate "-cos(1 - 1 + 1)" =
        .error f ∧ f.kind = .nestingTooDeep := by
  obtain ⟨outcome, peak, hunlimited, _, hlimits, hpeak⟩ :=
    evaluate_eq_unlimited { machine := .plain } "-cos(1 - 1 + 1)"
  have hvalue : ({ machine := .plain, frames := 10 } : Evaluator).evaluate "-cos(1 - 1 + 1)" =
      .ok (-.one) := by
    decide +kernel
  obtain ⟨t, htext, hdepth, hdenote⟩ := exists_negatedCall
  have hten : 10 = peak := ((hpeak t htext (-.one) hdenote).trans hdepth).symm
  have houtcome := (hlimits 10).1 (Nat.le_of_eq hten.symm)
  rw [hvalue] at houtcome
  exact ⟨(hunlimited _ _).2 ⟨houtcome, hten⟩, (hlimits 9).2 (by omega)⟩

end Evaluator

end Calculator
