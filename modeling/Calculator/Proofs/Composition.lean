import Calculator.Proofs.Causes
import Calculator.Proofs.Depth
import Calculator.Proofs.Embedding
import Calculator.Proofs.Soundness

/-!
# Evaluating what is put together

A text in parentheses is worth what the text is worth, and texts in parentheses that are joined
by an operator are worth what the operator makes of their values; so are the negative of such a
text, its powers, and calls with it as the argument. That holds as long as there is room for the
nesting, which parentheses add to.

For values this is seen on the trees (`Sentence.group`): the value of a tree does not depend on
where its text stands (`Grammar.Expression.denote_of_denote`). A text that fails has no tree. If
it is a computation that fails, then it does so within parentheses, too, one character further
on, since the text is read there as it is on its own (`Reader.carried_read`).
-/

namespace Calculator

open Grammar

/-! ## Values of trees at other places -/

namespace Grammar

theorem locate_of_locate {position : Nat} {r : Except Fault Binary64} {x : Binary64}
    (h : locate position r = .ok x) (position' : Nat) : locate position' r = .ok x := by
  cases r with
  | ok a => exact h
  | error fault => exact absurd h nofun

variable {m : Elementary} {x : Binary64} {k : Nat}

mutual

/-- The value of an expression is the same wherever its text starts. -/
theorem Expression.denote_of_denote : ∀ (e : Expression) {x : Binary64} {k : Nat},
    e.denote m k = .ok x → ∀ k', e.denote m k' = .ok x
  | .term t, _, _, h, k' => t.denote_of_denote h k'
  | .join e before o t, _, _, h, k' => by
    rw [Expression.denote] at h ⊢
    obtain ⟨x, hx, h⟩ := exists_of_bind_eq_ok h
    obtain ⟨y, hy, h⟩ := exists_of_bind_eq_ok h
    rw [e.denote_of_denote hx, t.denote_of_denote hy]
    exact locate_of_locate h _

theorem Term.denote_of_denote : ∀ (t : Term) {x : Binary64} {k : Nat},
    t.denote m k = .ok x → ∀ k', t.denote m k' = .ok x
  | .factor f, _, _, h, k' => f.denote_of_denote h k'
  | .join t before o f, _, _, h, k' => by
    rw [Term.denote] at h ⊢
    obtain ⟨x, hx, h⟩ := exists_of_bind_eq_ok h
    obtain ⟨y, hy, h⟩ := exists_of_bind_eq_ok h
    rw [t.denote_of_denote hx, f.denote_of_denote hy]
    exact locate_of_locate h _

theorem Factor.denote_of_denote : ∀ (f : Factor) {x : Binary64} {k : Nat},
    f.denote m k = .ok x → ∀ k', f.denote m k' = .ok x
  | .neg before f, _, _, h, k' => by
    rw [Factor.denote] at h ⊢
    obtain ⟨x, hx, h⟩ := exists_of_bind_eq_ok h
    rw [f.denote_of_denote hx]
    exact h
  | .primary before p, _, _, h, k' => p.denote_of_denote h _
  | .power before base between sign exponent, _, _, h, k' => by
    rw [Factor.denote] at h ⊢
    obtain ⟨x, hx, h⟩ := exists_of_bind_eq_ok h
    obtain ⟨y, hy, h⟩ := exists_of_bind_eq_ok h
    rw [base.denote_of_denote hx, exponent.denote_of_denote hy]
    exact locate_of_locate h _

theorem Primary.denote_of_denote : ∀ (p : Primary) {x : Binary64} {k : Nat},
    p.denote m k = .ok x → ∀ k', p.denote m k' = .ok x
  | .number n, _, _, h, k' => locate_of_locate h k'
  | .group e before, _, _, h, k' => e.denote_of_denote h _
  | .call name between argument before, _, _, h, k' => by
    rw [Primary.denote] at h ⊢
    obtain ⟨x, hx, h⟩ := exists_of_bind_eq_ok h
    rw [argument.denote_of_denote hx]
    exact locate_of_locate h _

end

/-! ## Trees put together -/

theorem isBlank_of_mem_nil : ∀ c ∈ ([] : List Char), Text.isBlank c = true :=
  List.forall_mem_nil _

/-- No blanks. -/
def noBlanks : Blanks := ⟨[], isBlank_of_mem_nil⟩

/-- A sentence in parentheses. -/
def Sentence.group (s : Sentence) : Primary := .group s.expression s.after

/-- The sentence of an expression alone. -/
def Expression.alone (e : Expression) : Sentence := ⟨e, noBlanks⟩

/-- An operator that does not stand between terms stands between factors. -/
theorem eq_of_not_additive {o : Operator} (h : ¬(o = .add ∨ o = .sub)) :
    o = .mul ∨ o = .div ∨ o = .mod := by
  revert h
  cases o <;> decide

/-- Primaries joined by an operator. -/
def Primary.join (p q : Primary) (o : Operator) : Expression :=
  if h : o = .add ∨ o = .sub then
    .join (.term (.factor (.primary noBlanks p))) noBlanks ⟨o, h⟩ (.factor (.primary noBlanks q))
  else
    .term (.join (.factor (.primary noBlanks p)) noBlanks ⟨o, eq_of_not_additive h⟩
      (.primary noBlanks q))

theorem Sentence.chars_group (s : Sentence) : s.group.chars = '(' :: s.chars ++ [')'] := by
  simp only [Sentence.group, Primary.chars, Sentence.chars, List.cons_append, List.append_assoc]

theorem Expression.chars_alone (e : Expression) : e.alone.chars = e.chars := List.append_nil _

theorem Primary.chars_join (p q : Primary) (o : Operator) :
    (p.join q o).chars = p.chars ++ o.char :: q.chars := by
  rw [Primary.join]
  split <;>
    simp only [Expression.chars, Term.chars, Factor.chars, noBlanks, List.nil_append,
      List.append_nil]

theorem Sentence.denote_group {s : Sentence} (h : s.denote m = .ok x) (k : Nat) :
    s.group.denote m k = .ok x := s.expression.denote_of_denote h _

/-- Joined primaries are worth what the operator makes of their values. -/
theorem Primary.denote_join {p q : Primary} {y : Binary64} (hp : ∀ k, p.denote m k = .ok x)
    (hq : ∀ k, q.denote m k = .ok y) (o : Operator) :
    (p.join q o).alone.denote m = locate p.chars.length (o.apply x y) := by
  rw [Primary.join]
  split <;>
    simp only [Expression.alone, Sentence.denote, Expression.denote, Term.denote, Factor.denote,
      hp, hq, Expression.chars, Term.chars, Factor.chars, noBlanks, List.nil_append,
      List.length_nil, Nat.zero_add, Nat.add_zero] <;>
    rfl

end Grammar

/-! ## Readers within parentheses -/

namespace Reader

variable {m : Elementary} {frames : Nat}

/-- A fault of an expression in parentheses is that of the whole text which begins with them. -/
theorem run_whole_of_group {cs : List Char} {e : Located} {d : Cursor}
    (h : (read m .expression frames).run ⟨1, cs⟩ = .error e d) :
    (whole m (frames + 4)).run ⟨0, '(' :: cs⟩ = .error e d := by
  have hblank : Text.isBlank '(' = false := by decide
  have hpast : (Cursor.mk 0 ('(' :: cs)).pastBlanks = ⟨0, '(' :: cs⟩ :=
    Cursor.pastBlanks_eq_self fun a ha => by rw [← Option.some.inj ha]; exact hblank
  have hprimary : (read m .primary (frames + 1)).run ⟨0, '(' :: cs⟩ = .error e d := by
    rw [run_primary]
    exact run_bind_of_error h _
  have hfactor : (read m .factor (frames + 2)).run ⟨0, '(' :: cs⟩ = .error e d := by
    have hminus : (Cursor.mk 0 ('(' :: cs)).rest.head? ≠ some '-' := fun h =>
      absurd (Option.some.inj h) (by decide)
    rw [run_factor, hpast, if_neg (List.cons_ne_nil _ _), if_neg hminus]
    exact run_bind_of_error hprimary _
  have hterm : (read m .term (frames + 3)).run ⟨0, '(' :: cs⟩ = .error e d := by
    rw [read_term, chain_eq]
    exact run_bind_of_error hfactor _
  refine run_bind_of_error ?_ _
  show (read m .expression (frames + 4)).run ⟨0, '(' :: cs⟩ = .error e d
  rw [read_expression, chain_eq]
  exact run_bind_of_error hterm _

/-- A whole text fails because of its expression, or because of what is written after it. -/
theorem run_expression_of_run_whole {c d : Cursor} {e : Located}
    (h : (whole m frames).run c = .error e d) (he : e.fault.isSyntactic = false) :
    (read m .expression frames).run c = .error e d := by
  rw [whole, run_bind] at h
  show (expression m frames).run c = _
  cases hrun : (expression m frames).run c with
  | error e' c' =>
    rw [hrun] at h
    exact h
  | ok x c' =>
    rw [hrun] at h
    dsimp only at h
    rw [run_skipBlanks_bind, run_atEnd_bind] at h
    cases hend : c'.pastBlanks.rest.isEmpty with
    | true =>
      rw [hend] at h
      cases h
    | false =>
      rw [hend, if_neg Bool.false_ne_true, run_unexpected] at h
      obtain ⟨rfl, _⟩ := EStateM.Result.error.inj h
      exact absurd he Bool.false_ne_true.symm

end Reader

/-! ## Texts put together -/

/-- The text in parentheses. -/
def parenthesized (s : String) : String := "(" ++ s ++ ")"

/-- The kinds of faults that computations have. -/
def Fault.Kind.computational : List Kind :=
  [divisionByZero, moduloByZero, domainError, unknownFunction, invalidPower, numericOverflow]

/-- The faults of computations are those that are neither about what is written nor about room. -/
theorem Fault.kind_mem_computational_iff (fault : Fault) :
    fault.kind ∈ Kind.computational ↔ fault.isSyntactic = false ∧ fault ≠ .nestingTooDeep := by
  cases fault <;> simp [kind, Kind.computational, isSyntactic]

namespace Evaluator

variable (v : Evaluator)

/-- There is room for the nesting in a text. -/
def HasRoom (text : String) : Prop :=
  ∀ f, v.evaluate text = .error f → f.kind ≠ .nestingTooDeep

instance (text : String) : Decidable (v.HasRoom text) :=
  decidable_of_iff ((match v.evaluate text with
      | .ok _ => true
      | .error f => f.kind != .nestingTooDeep) = true) <| by
    rw [HasRoom]
    cases v.evaluate text <;> simp

/-- A value of a text, or the failure of the text for a fault at an offset. -/
def outcomeAt (text : String) (position : Nat) (r : Except Fault Binary64) :
    Except Failure Binary64 :=
  (locate position r).mapError (v.failure text)

variable {v} {s t : String} {x y : Binary64}

/-- More frames make no difference to a text for which there is room. -/
theorem HasRoom.run_eq (h : v.HasRoom s) {frames : Nat} (hframes : v.frames ≤ frames) :
    (Reader.whole v.machine v.frames).run (Cursor.start s) =
      (Reader.whole v.machine frames).run (Cursor.start s) := by
  refine (Reader.approximates_whole v.machine hframes (Cursor.start s)).eq fun p c hrun => ?_
  have hdeep : v.evaluate s = .error (v.failure s ⟨.nestingTooDeep, p⟩) := by
    rw [evaluate, hrun]
  exact h _ hdeep rfl

/-- A sentence for which there is room evaluates to its denotation. -/
theorem HasRoom.evaluate_text {t : Sentence} (h : v.HasRoom t.text) :
    v.evaluate t.text = (t.denote v.machine).mapError (v.failure t.text) := by
  have hgives := Reader.gives_whole v.machine (Nat.le_max_right v.frames t.depth)
  rw [evaluate, h.run_eq (Nat.le_max_left v.frames t.depth)]
  cases hdenote : t.denote v.machine with
  | ok z =>
    rw [hdenote] at hgives
    rw [show (Reader.whole _ _).run _ = _ from hgives]
    rfl
  | error e =>
    rw [hdenote] at hgives
    obtain ⟨c, hc⟩ := hgives
    rw [hc]
    rfl

/-- A text with a value is that of a sentence. -/
theorem exists_sentence_of_evaluate (h : v.evaluate s = .ok x) :
    ∃ t : Sentence, t.text = s ∧ t.denote v.machine = .ok x := by
  have hread := Reader.ends_whole v.machine v.frames s
  rw [evaluate] at h
  cases hrun : (Reader.whole v.machine v.frames).run (Cursor.start s) with
  | error e c =>
    rw [hrun] at h
    cases h
  | ok z c =>
    rw [hrun] at h hread
    obtain rfl : z = x := Except.ok.inj h
    exact hread

/-- What is put together of trees evaluates to what it denotes. -/
theorem evaluate_alone {e : Expression} {text : String} {k : Nat}
    {r : Except Fault Binary64} (htext : e.chars = text.toList) (hroom : v.HasRoom text)
    (hdenote : e.alone.denote v.machine = locate k r) :
    v.evaluate text = v.outcomeAt text k r := by
  have halone : e.alone.text = text := by
    rw [Sentence.text, e.chars_alone, htext, String.ofList_toList]
  rw [← halone] at hroom ⊢
  rw [hroom.evaluate_text, hdenote]
  rfl

/-- A failed computation fails in the same way within parentheses, one character further on. -/
theorem evaluate_parenthesized_of_error {f : Failure} (hroom : v.HasRoom (parenthesized s))
    (h : v.evaluate s = .error f) (hf : f.fault.isSyntactic = false) :
    v.evaluate (parenthesized s) =
      .error { f with text := parenthesized s, position := f.position + 1 } := by
  obtain ⟨e, c, hrun, rfl⟩ := exists_of_evaluate_error h
  have hclose : Closing [')'] := .inr ⟨[], rfl⟩
  have hembedded : Reader.Embedded 1 [')'] (Cursor.start s) ⟨1, s.toList ++ [')']⟩ := ⟨rfl, rfl⟩
  have hcarried := Reader.carried_read hclose v.machine v.frames .expression hembedded
  rw [Reader.run_expression_of_run_whole hrun hf] at hcarried
  rcases hcarried with ⟨_, hsyntactic⟩ | ⟨d, hd, _⟩
  · exact absurd (hf.symm.trans hsyntactic) Bool.false_ne_true
  · have hstart : Cursor.start (parenthesized s) = ⟨0, '(' :: (s.toList ++ [')'])⟩ := by
      rw [Cursor.start, parenthesized, String.toList_append, String.toList_append]
      rfl
    have hwhole := hroom.run_eq (Nat.le_add_right v.frames 4)
    rw [hstart, Reader.run_whole_of_group hd, ← hstart] at hwhole
    rw [evaluate, hwhole]
    rfl

/-! ## What values make -/

theorem toList_parenthesized (s : String) :
    (parenthesized s).toList = '(' :: s.toList ++ [')'] := by
  rw [parenthesized, String.toList_append, String.toList_append]
  rfl

theorem chars_group_eq (t : Sentence) : t.group.chars = (parenthesized t.text).toList := by
  rw [t.chars_group, toList_parenthesized, Sentence.text, String.toList_ofList]

theorem evaluate_parenthesized_of_ok (hroom : v.HasRoom (parenthesized s))
    (hs : v.evaluate s = .ok x) : v.evaluate (parenthesized s) = .ok x := by
  obtain ⟨t, rfl, ht⟩ := exists_sentence_of_evaluate hs
  exact evaluate_alone (e := .term (.factor (.primary noBlanks t.group))) (k := 0)
    (r := .ok x) (chars_group_eq t) hroom (t.denote_group ht _)

theorem evaluate_minus (hroom : v.HasRoom ("-" ++ parenthesized s)) (hs : v.evaluate s = .ok x) :
    v.evaluate ("-" ++ parenthesized s) = .ok (-x) := by
  obtain ⟨t, rfl, ht⟩ := exists_sentence_of_evaluate hs
  refine evaluate_alone (e := .term (.factor (.neg noBlanks (.primary noBlanks t.group))))
    (k := 0) (r := .ok (-x)) ?_ hroom ?_
  · rw [String.toList_append, ← chars_group_eq]
    rfl
  · show (do return -(← t.group.denote v.machine _)) = _
    rw [t.denote_group ht]
    rfl

theorem evaluate_call (name : Name)
    (hroom : v.HasRoom (String.ofList name.chars ++ parenthesized s))
    (hs : v.evaluate s = .ok x) :
    v.evaluate (String.ofList name.chars ++ parenthesized s) =
      v.outcomeAt (String.ofList name.chars ++ parenthesized s) 0
        (applyNamed v.machine (String.ofList name.chars) x) := by
  obtain ⟨t, rfl, ht⟩ := exists_sentence_of_evaluate hs
  refine evaluate_alone (e := .term (.factor (.primary noBlanks
    (.call name noBlanks t.expression t.after)))) ?_ hroom ?_
  · rw [String.toList_append, String.toList_ofList, ← chars_group_eq]
    simp only [Expression.chars, Term.chars, Factor.chars, Primary.chars, Sentence.group, noBlanks,
      List.nil_append, List.append_nil, List.append_assoc, List.cons_append]
  · show (do
      let y ← t.expression.denote v.machine _
      locate 0 (applyNamed v.machine (String.ofList name.chars) y)) = _
    rw [t.expression.denote_of_denote ht]
    rfl

theorem evaluate_operator (o : Operator)
    (hroom : v.HasRoom (parenthesized s ++ String.singleton o.char ++ parenthesized t))
    (hs : v.evaluate s = .ok x) (ht : v.evaluate t = .ok y) :
    v.evaluate (parenthesized s ++ String.singleton o.char ++ parenthesized t) =
      v.outcomeAt (parenthesized s ++ String.singleton o.char ++ parenthesized t)
        (parenthesized s).toList.length (o.apply x y) := by
  obtain ⟨a, rfl, ha⟩ := exists_sentence_of_evaluate hs
  obtain ⟨b, rfl, hb⟩ := exists_sentence_of_evaluate ht
  refine evaluate_alone (e := a.group.join b.group o) ?_ hroom ?_
  · rw [Primary.chars_join, String.toList_append, String.toList_append, ← chars_group_eq,
      ← chars_group_eq, String.toList_singleton, List.append_assoc, List.singleton_append]
  · rw [Primary.denote_join (a.denote_group ha) (b.denote_group hb), chars_group_eq]

theorem evaluate_power (sign : PowerSign)
    (hroom : v.HasRoom (parenthesized s ++ String.ofList sign.chars ++ parenthesized t))
    (hs : v.evaluate s = .ok x) (ht : v.evaluate t = .ok y) :
    v.evaluate (parenthesized s ++ String.ofList sign.chars ++ parenthesized t) =
      v.outcomeAt (parenthesized s ++ String.ofList sign.chars ++ parenthesized t)
        (parenthesized s).toList.length (power v.machine x y) := by
  obtain ⟨a, rfl, ha⟩ := exists_sentence_of_evaluate hs
  obtain ⟨b, rfl, hb⟩ := exists_sentence_of_evaluate ht
  refine evaluate_alone (e := .term (.factor (.power noBlanks a.group noBlanks sign
    (.primary noBlanks b.group)))) ?_ hroom ?_
  · rw [String.toList_append, String.toList_append, ← chars_group_eq, ← chars_group_eq,
      String.toList_ofList]
    simp only [Expression.chars, Term.chars, Factor.chars, noBlanks, List.nil_append,
      List.append_nil]
  · simp only [Expression.alone, Sentence.denote, Expression.denote, Term.denote, Factor.denote,
      a.denote_group ha, b.denote_group hb, noBlanks, List.length_nil, Nat.zero_add, Nat.add_zero,
      chars_group_eq]
    rfl

/-- As long as there is room for the nesting: in parentheses, a text has its value, or fails
    with the same computation one character further on; and of texts with values, the negative,
    the call of a function, the operations and the powers are what is computed of the values, or
    fail with what the computation says, at the name or the operator. -/
theorem evaluate_compose (v : Evaluator) (s : String) :
    (v.HasRoom (parenthesized s) →
      (∀ x, v.evaluate s = .ok x → v.evaluate (parenthesized s) = .ok x) ∧
      ∀ f, v.evaluate s = .error f → f.kind ∈ Fault.Kind.computational →
        v.evaluate (parenthesized s) =
          .error { f with text := parenthesized s, position := f.position + 1 }) ∧
    ∀ x, v.evaluate s = .ok x →
      (v.HasRoom ("-" ++ parenthesized s) →
        v.evaluate ("-" ++ parenthesized s) = .ok (-x)) ∧
      (∀ name : Name,
        let text := String.ofList name.chars ++ parenthesized s
        v.HasRoom text → v.evaluate text =
          v.outcomeAt text 0 (applyNamed v.machine (String.ofList name.chars) x)) ∧
      ∀ t y, v.evaluate t = .ok y →
        (∀ o : Operator,
          let text := parenthesized s ++ String.singleton o.char ++ parenthesized t
          v.HasRoom text → v.evaluate text =
            v.outcomeAt text (parenthesized s).toList.length (o.apply x y)) ∧
        ∀ sign : PowerSign,
          let text := parenthesized s ++ String.ofList sign.chars ++ parenthesized t
          v.HasRoom text → v.evaluate text =
            v.outcomeAt text (parenthesized s).toList.length (power v.machine x y) :=
  ⟨fun hroom => ⟨fun _ hs => evaluate_parenthesized_of_ok hroom hs, fun f hs hkind =>
    evaluate_parenthesized_of_error hroom hs (f.fault.kind_mem_computational_iff.1 hkind).1⟩,
    fun _ hs => ⟨fun hroom => evaluate_minus hroom hs, fun name hroom =>
      evaluate_call name hroom hs, fun _ _ ht => ⟨fun o hroom => evaluate_operator o hroom hs ht,
        fun sign hroom => evaluate_power sign hroom hs ht⟩⟩⟩

/-- A division by zero in a text that is not even written to its end, and a product. -/
theorem evaluate_compose_unfinished :
    let v : Evaluator := { machine := .plain }
    let failure : Failure := { fault := .divisionByZero, text := "1/0+", position := 1 }
    (v.HasRoom (parenthesized "1/0+") ∧ v.evaluate "1/0+" = .error failure ∧
      failure.kind ∈ Fault.Kind.computational ∧
      v.evaluate "(1/0+)" = .error { failure with text := "(1/0+)", position := 2 }) ∧
    ∃ x y, v.evaluate "1+1" = .ok x ∧ v.evaluate " 3 " = .ok y ∧
      v.HasRoom (parenthesized "1+1" ++ String.singleton '*' ++ parenthesized " 3 ") ∧
      v.evaluate "(1+1)*( 3 )" = v.outcomeAt "(1+1)*( 3 )" 5 (Operator.mul.apply x y) := by
  intro v failure
  have hroom : v.HasRoom (parenthesized "1/0+") := by decide +kernel
  have hfails : v.evaluate "1/0+" = .error failure := by decide +kernel
  have hkind : failure.kind ∈ Fault.Kind.computational := by decide
  have hroom' : v.HasRoom (parenthesized "1+1" ++ String.singleton '*' ++ parenthesized " 3 ") := by
    decide +kernel
  obtain ⟨x, hx⟩ : ∃ x, v.evaluate "1+1" = .ok x :=
    ⟨(Decimal.ofNumeral ['2'] []).toBinary64 false, by decide +kernel⟩
  obtain ⟨y, hy⟩ : ∃ y, v.evaluate " 3 " = .ok y :=
    ⟨(Decimal.ofNumeral ['3'] []).toBinary64 false, by decide +kernel⟩
  exact ⟨⟨hroom, hfails, hkind, ((evaluate_compose v "1/0+").1 hroom).2 failure hfails hkind⟩,
    x, y, hx, hy, hroom', (((evaluate_compose v "1+1").2 x hx).2.2 " 3 " y hy).1 .mul hroom'⟩

end Evaluator

end Calculator
