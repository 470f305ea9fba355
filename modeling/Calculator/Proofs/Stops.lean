import Calculator.Proofs.Levels
import Calculator.Proofs.Machines

/-!
# Where levels stop

A level goes on as long as it can. When it has a value, the blanks after it are passed, and what
comes next is none of the signs with which the level, or one within it, would have gone on
(`Level.Done`): no sign of a power after a factor, no operator between factors after a term, and
none between terms after an expression.

This is how two stars are told from one without cutting the text into tokens beforehand. A chain
of factors looks for an operator only where a factor has stopped (`ChainReaches`), and there two
stars do not stand. So a star that it takes for a product has no other star after it.
-/

namespace Calculator

/-- The signs with which a level, or a level within it, goes on after a value. -/
def Level.signs : Level → List String
  | expression => ["^", "**", "*", "/", "%", "+", "-"]
  | term => ["^", "**", "*", "/", "%"]
  | factor => ["^", "**"]
  | primary => []
  | call => []

/-- There is nothing more to read for a level: the cursor is at the end or at a character that is
    no blank, and none of the signs of the level comes next. -/
structure Level.Done (l : Level) (c : Cursor) : Prop where
  isBlank : ∀ a, c.rest.head? = some a → Text.isBlank a = false
  signs : ∀ sign ∈ l.signs, ¬ sign.toList <+: c.rest

theorem Level.Done.pastBlanks_eq {l : Level} {c : Cursor} (h : l.Done c) : c.pastBlanks = c :=
  Cursor.pastBlanks_eq_self h.isBlank

namespace Text

/-- One character is the start of a text if it comes first there. -/
theorem singleton_prefix_iff {a : Char} {cs : List Char} : [a] <+: cs ↔ cs.head? = some a := by
  rw [List.cons_prefix_iff, List.head?_eq_some_iff]
  exact exists_congr fun r => and_iff_left List.nil_prefix

theorem stars_prefix_iff {cs : List Char} :
    ['*', '*'] <+: cs ↔ cs[0]? = some '*' ∧ cs[1]? = some '*' := by
  rw [List.prefix_iff_getElem?]
  constructor
  · exact fun h => ⟨h 0 (by decide), h 1 (by decide)⟩
  · rintro ⟨hfirst, hsecond⟩ i hi
    match i, hi with
    | 0, _ => exact hfirst
    | 1, _ => exact hsecond

end Text

namespace Reader

variable {m : Elementary} {frames : Nat} {c c' : Cursor} {x : Binary64}

/-- What is known of a value is at least the run that gave it. -/
theorem ends_of_run {α : Type} (y : Outcome α) :
    Ends y (fun a c => y = .ok a c) fun _ _ => True := by
  cases y with
  | ok a c => rfl
  | error e c => trivial

/-! ## Factors -/

/-- Without the sign of a power at the cursor, a factor is done past the blanks. -/
theorem done_of_powerSign (hblank : ∀ a, c.rest.head? = some a → Text.isBlank a = false)
    (h : powerSign.run c = .ok false c') : Level.factor.Done c' := by
  rw [run_powerSign] at h
  split at h
  · cases h
  · rename_i hcaret
    split at h
    · cases h
    · rename_i hstars
      cases h
      refine ⟨hblank, fun sign hsign => ?_⟩
      simp only [Level.signs, List.mem_cons, List.not_mem_nil, or_false] at hsign
      rcases hsign with rfl | rfl
      · exact mt Text.singleton_prefix_iff.1 hcaret
      · exact mt Text.stars_prefix_iff.1 hstars

variable (m frames c) in
/-- A factor goes on until it is done. An exponent and what follows a minus are factors, so they
    stop where the factor does. -/
theorem done_factor :
    Ends ((read m .factor frames).run c) (fun _ c' => Level.factor.Done c') fun _ _ => True := by
  induction frames generalizing c with
  | zero =>
    rw [read_zero]
    trivial
  | succ frames ih =>
    rw [run_factor]
    split
    · trivial
    · split
      · exact (ih _).bind fun x c' h => h
      · refine (ends_of_run ((primary m frames).run c.pastBlanks)).bind fun base c₁ _ => ?_
        rw [run_skipBlanks_bind, raised, run_position_bind]
        refine (ends_of_run (powerSign.run c₁.pastBlanks)).bind fun found c₂ hfound => ?_
        cases found
        · exact done_of_powerSign (fun _ => Cursor.isBlank_of_head?_pastBlanks) hfound
        · exact (ih c₂).bind fun y c' h => ends_valueAt (fun _ _ => h) fun _ _ => trivial

/-! ## Chains -/

variable {operator? : Char → Option Operator} {operand : Reader Binary64}

/-- A chain that begins at `c` comes to the cursor `c'`, with the value `x` so far: past its first
    operand, or past one more link. Here it looks for the next operator. -/
inductive ChainReaches (operator? : Char → Option Operator) (operand : Reader Binary64)
    (c : Cursor) : Binary64 → Cursor → Prop
  | first {x : Binary64} {c' : Cursor} : operand.run c = .ok x c' →
      ChainReaches operator? operand c x c'
  | link {x y : Binary64} {c₁ c' : Cursor} {o : Operator} :
      ChainReaches operator? operand c x c₁ → c₁.pastBlanks.rest.head?.bind operator? = some o →
      (chainLink operand x c₁.pastBlanks.offset o).run (c₁.pastBlanks.forward 1) = .ok y c' →
      ChainReaches operator? operand c y c'

/-- From where a chain has come to, it goes on as the chain that began before. -/
theorem ChainReaches.run_eq (hp : Progresses operand) (h : ChainReaches operator? operand c x c') :
    (chain operator? operand).run c = (chainTail operator? operand x).run c' := by
  induction h with
  | first hrun => rw [chain_eq, run_bind_of_ok hrun]
  | link hreaches ho hrun ih =>
    rw [ih, run_chainTail hp, ho]
    exact run_bind_of_ok hrun _

/-- Wherever a chain looks for an operator, an operand has stopped. -/
theorem ChainReaches.done {inner : Level}
    (hoperand : ∀ c, Ends (operand.run c) (fun _ c' => inner.Done c') fun _ _ => True)
    (h : ChainReaches operator? operand c x c') : inner.Done c' := by
  have hlink (value : Binary64) (start : Nat) (o : Operator) (c : Cursor) :
      Ends ((chainLink operand value start o).run c) (fun _ c' => inner.Done c') fun _ _ => True :=
    (hoperand c).bind fun _ _ hdone => ends_valueAt (fun _ _ => hdone) fun _ _ => trivial
  cases h with
  | first hrun => exact (hoperand c).value hrun
  | link _ _ hrun => exact (hlink _ _ _ _).value hrun

/-- A chain that has a value ends past the blanks where it has come to, as no operator comes
    next. -/
theorem chainReaches_of_chain (hp : Progresses operand) (c : Cursor) :
    Ends ((chain operator? operand).run c)
      (fun x c' => ∃ c₁, ChainReaches operator? operand c x c₁ ∧ c' = c₁.pastBlanks ∧
        c'.rest.head?.bind operator? = none) fun _ _ => True := by
  refine ends_chain hp ((ends_of_run (operand.run c)).imp (fun _ _ => .first) fun _ _ => id)
    fun value c₁ o hreaches ho => ?_
  exact (ends_of_run _).imp (fun _ _ => hreaches.link ho) fun _ _ => id

/-- A chain of operands that go on until they are done is done where no operator comes next. -/
theorem done_chain {outer inner : Level} (hp : Progresses operand)
    (hoperand : ∀ c, Ends (operand.run c) (fun _ c' => inner.Done c') fun _ _ => True)
    (houter : ∀ c, inner.Done c → c.rest.head?.bind operator? = none → outer.Done c)
    (c : Cursor) :
    Ends ((chain operator? operand).run c) (fun _ c' => outer.Done c') fun _ _ => True := by
  refine (chainReaches_of_chain hp c).imp ?_ fun _ _ => id
  rintro x c' ⟨c₁, hreaches, rfl, hnone⟩
  have hdone := hreaches.done hoperand
  exact houter _ (by rwa [hdone.pastBlanks_eq]) hnone

/-- The signs of a level are those of the level within it, and the operators of its table. -/
theorem done_of_signs {outer inner : Level} (ops : List Char)
    (hsigns : outer.signs = inner.signs ++ ops.map String.singleton)
    (hops : ops.all fun a => (operator? a).isSome) (h : inner.Done c)
    (hnone : c.rest.head?.bind operator? = none) : outer.Done c := by
  refine ⟨h.isBlank, fun sign hsign hstart => ?_⟩
  rw [hsigns, List.mem_append, List.mem_map] at hsign
  rcases hsign with hinner | ⟨a, ha, rfl⟩
  · exact h.signs sign hinner hstart
  · rw [String.toList_singleton, Text.singleton_prefix_iff] at hstart
    have hsome := List.all_eq_true.1 hops a ha
    rw [hstart, Option.bind_some] at hnone
    rw [hnone] at hsome
    cases hsome

variable (m frames) in
theorem done_term (c : Cursor) :
    Ends ((read m .term frames).run c) (fun _ c' => Level.term.Done c') fun _ _ => True := by
  cases frames with
  | zero =>
    rw [read_zero]
    trivial
  | succ frames =>
    exact done_chain (progresses_read m frames .factor) (done_factor m frames)
      (fun _ => done_of_signs ['*', '/', '%'] (by decide) (by decide)) c

variable (m frames) in
theorem done_expression (c : Cursor) :
    Ends ((read m .expression frames).run c) (fun _ c' => Level.expression.Done c')
      fun _ _ => True := by
  cases frames with
  | zero =>
    rw [read_zero]
    trivial
  | succ frames =>
    exact done_chain (progresses_read m frames .term) (done_term m frames)
      (fun _ => done_of_signs ['+', '-'] (by decide) (by decide)) c

/-- At any cursor, a factor, a term and an expression that are read go on until they are done: past
    the blanks, before none of their signs. So wherever the chain of a term looks for an operator
    and passes a star, no other star comes next. -/
theorem done_of_run (m : Elementary) (frames : Nat) (c : Cursor) :
    (∀ l ∈ [Level.factor, Level.term, Level.expression], ∀ x c',
      (read m l frames).run c = .ok x c' →
        (∀ a, c'.rest.head? = some a → Text.isBlank a = false) ∧
          ∀ sign ∈ l.signs, ¬ sign.toList <+: c'.rest) ∧
    ∀ x c', ChainReaches Operator.multiplicative? (read m .factor frames) c x c' →
      (read m .term (frames + 1)).run c =
          (chainTail Operator.multiplicative? (read m .factor frames) x).run c' ∧
        (c'.pastBlanks.rest.head? = some '*' →
          (c'.pastBlanks.forward 1).rest.head? ≠ some '*') := by
  refine ⟨fun l hl x c' h => ?_, fun x c' h => ⟨?_, fun hstar hsecond => ?_⟩⟩
  · have hdone : l.Done c' := by
      simp only [List.mem_cons, List.not_mem_nil, or_false] at hl
      rcases hl with rfl | rfl | rfl
      · exact (done_factor m frames c).value h
      · exact (done_term m frames c).value h
      · exact (done_expression m frames c).value h
    exact ⟨hdone.isBlank, hdone.signs⟩
  · rw [read_term]
    exact h.run_eq (progresses_read m frames .factor)
  · have hdone : Level.factor.Done c' := h.done (done_factor m frames)
    rw [hdone.pastBlanks_eq] at hstar hsecond
    obtain ⟨r, hr⟩ := List.head?_eq_some_iff.1 hstar
    refine hdone.signs "**" (by decide) (Text.stars_prefix_iff.2 ⟨?_, ?_⟩)
    · rw [hr]
      rfl
    · rw [hr]
      rw [Cursor.forward, hr] at hsecond
      rwa [List.head?_eq_getElem?] at hsecond

/-- A factor that is followed by a product stops at the star, and the term looks there for its
    operator. -/
theorem done_of_run_product :
    let c := Cursor.start "2 * 3^4 + 5"
    let c' : Cursor := ⟨2, "* 3^4 + 5".toList⟩
    ∃ two, (read .plain .factor 3).run c = .ok two c' ∧
      (∀ sign ∈ ["^", "**"], ¬ sign.toList <+: c'.rest) ∧
      ChainReaches Operator.multiplicative? (read .plain .factor 3) c two c' ∧
      c'.pastBlanks.rest.head? = some '*' ∧ (c'.pastBlanks.forward 1).rest.head? ≠ some '*' := by
  intro c c'
  have hrun : (read .plain .factor 3).run c =
      .ok ((Decimal.ofNumeral ['2'] []).toBinary64 false) c' :=
    valueOf?_eq_some_iff.1 (by decide +kernel)
  obtain ⟨hlevels, hlinks⟩ := done_of_run .plain 3 c
  exact ⟨_, hrun, (hlevels .factor (by decide) _ c' hrun).2, .first hrun, by decide,
    (hlinks _ c' (.first hrun)).2 (by decide)⟩

end Reader

end Calculator
