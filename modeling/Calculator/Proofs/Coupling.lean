import Calculator.Proofs.Composition

/-!
# A text and its carets as stars

If every caret of a text is written as two stars (`starred`), then the same classes, marks,
numbers and names are found in both texts, and the same signs of powers, but for one place: where
a star stands in front of a caret, there are three stars then, and the first two of them are
taken for the sign of a power.

So two runs that read the texts go side by side (`Coupled`) until the second one is misread: it
looks for an operand where none begins. What holds of the second run then depends on what the
first one does next, so both possibilities are carried along after a factor (`MatchedFactor`),
and a failure of the first run says in which of three ways the second one fails (`Fails`).
-/

namespace Calculator

/-- The characters with two stars for every caret. -/
def starred (cs : List Char) : List Char :=
  cs.flatMap fun a => if a = '^' then ['*', '*'] else [a]

/-- A star stands in front of a caret. -/
def StarCaret (cs : List Char) : Prop := ['*', '^'] <+: cs

instance : DecidablePred StarCaret := fun cs => inferInstanceAs (Decidable (_ <+: cs))

theorem starred_caret (cs : List Char) : starred ('^' :: cs) = '*' :: '*' :: starred cs := rfl

theorem starred_cons {a : Char} (ha : a ≠ '^') (cs : List Char) :
    starred (a :: cs) = a :: starred cs := by
  rw [starred, List.flatMap_cons, if_neg ha]
  rfl

theorem starred_eq_nil_iff (cs : List Char) : starred cs = [] ↔ cs = [] := by
  cases cs with
  | nil => exact Iff.rfl
  | cons a cs =>
    by_cases ha : a = '^'
    · rw [ha, starred_caret]
      exact ⟨nofun, nofun⟩
    · rw [starred_cons ha]
      exact ⟨nofun, nofun⟩

/-- A class without stars and carets has the same run at the start, and what comes after it
    is starred. -/
theorem span_starred {p : Char → Bool} (hstar : p '*' = false) (hcaret : p '^' = false)
    (cs : List Char) :
    (starred cs).takeWhile p = cs.takeWhile p ∧
      (starred cs).dropWhile p = starred (cs.dropWhile p) := by
  induction cs with
  | nil => exact ⟨rfl, rfl⟩
  | cons a cs ih =>
    by_cases ha : a = '^'
    · subst ha
      have hstar' : ¬ p '*' = true := by rw [hstar]; exact Bool.false_ne_true
      have hcaret' : ¬ p '^' = true := by rw [hcaret]; exact Bool.false_ne_true
      rw [List.takeWhile_cons_of_neg hcaret', List.dropWhile_cons_of_neg hcaret', starred_caret,
        List.takeWhile_cons_of_neg hstar', List.dropWhile_cons_of_neg hstar']
      exact ⟨rfl, rfl⟩
    · rw [starred_cons ha]
      by_cases hp : p a = true
      · rw [List.takeWhile_cons_of_pos hp, List.takeWhile_cons_of_pos hp,
          List.dropWhile_cons_of_pos hp, List.dropWhile_cons_of_pos hp, ih.1]
        exact ⟨rfl, ih.2⟩
      · rw [List.takeWhile_cons_of_neg hp, List.takeWhile_cons_of_neg hp,
          List.dropWhile_cons_of_neg hp, List.dropWhile_cons_of_neg hp, starred_cons ha]
        exact ⟨rfl, rfl⟩

/-- A character that is no caret stands where it does. -/
theorem head?_starred {cs : List Char} {a : Char} (h : cs.head? = some a) (ha : a ≠ '^') :
    (starred cs).head? = some a := by
  obtain ⟨r, rfl⟩ := List.head?_eq_some_iff.1 h
  rw [starred_cons ha]
  rfl

theorem head?_starred_eq_some_iff {a : Char} (hstar : a ≠ '*') (hcaret : a ≠ '^')
    (cs : List Char) : (starred cs).head? = some a ↔ cs.head? = some a := by
  refine ⟨fun h => ?_, fun h => head?_starred h hcaret⟩
  cases cs with
  | nil => exact absurd h nofun
  | cons b cs =>
    by_cases hb : b = '^'
    · rw [hb, starred_caret] at h
      exact absurd (Option.some.inj h).symm hstar
    · rw [starred_cons hb] at h
      exact h

/-- The same operator comes first, if it is not the caret that is taken for one. -/
theorem head?_starred_bind {operator? : Char → Option Operator} {cs : List Char}
    (h : cs.head? = some '^' → operator? '*' = none ∧ operator? '^' = none) :
    (starred cs).head?.bind operator? = cs.head?.bind operator? := by
  cases cs with
  | nil => rfl
  | cons a cs =>
    by_cases ha : a = '^'
    · subst ha
      obtain ⟨hstar, hcaret⟩ := h rfl
      exact hstar.trans hcaret.symm
    · rw [starred_cons ha]
      rfl

namespace Reader

variable {α β : Type}

/-- What is left at the second cursor is what is left at the first, starred. -/
def Starred (c d : Cursor) : Prop := d.rest = starred c.rest

namespace Starred

variable {c d : Cursor}

theorem takeWhile (h : Starred c d) {p : Char → Bool} (hstar : p '*' = false)
    (hcaret : p '^' = false) :
    d.rest.takeWhile p = c.rest.takeWhile p ∧
      Starred (c.forward (c.rest.takeWhile p).length)
        (d.forward (c.rest.takeWhile p).length) := by
  obtain ⟨htake, hdrop⟩ := span_starred hstar hcaret c.rest
  have hrun : d.rest.takeWhile p = c.rest.takeWhile p := by rw [h, htake]
  refine ⟨hrun, ?_⟩
  rw [Starred, c.rest_forward_takeWhile, ← hrun, d.rest_forward_takeWhile, h, hdrop]

theorem pastBlanks (h : Starred c d) : Starred c.pastBlanks d.pastBlanks := by
  obtain ⟨hblanks, hpast⟩ := h.takeWhile (p := Text.isBlank) (by decide) (by decide)
  rw [Cursor.pastBlanks, Cursor.pastBlanks, hblanks]
  exact hpast

theorem forward_one (h : Starred c d) {a : Char} (ha : c.rest.head? = some a)
    (hcaret : a ≠ '^') : Starred (c.forward 1) (d.forward 1) := by
  obtain ⟨r, hr⟩ := List.head?_eq_some_iff.1 ha
  show d.rest.drop 1 = starred (c.rest.drop 1)
  rw [h, hr, starred_cons hcaret]
  rfl

theorem head?_eq_some_iff (h : Starred c d) {a : Char} (hstar : a ≠ '*') (hcaret : a ≠ '^') :
    d.rest.head? = some a ↔ c.rest.head? = some a := by
  rw [h]
  exact head?_starred_eq_some_iff hstar hcaret c.rest

theorem rest_eq_nil_iff (h : Starred c d) : d.rest = [] ↔ c.rest = [] := by
  rw [h]
  exact starred_eq_nil_iff c.rest

end Starred

/-! ## Operands that do not begin -/

/-- The kinds of fault of a text that has no operand where there should be one. -/
def missingOperand : List Fault.Kind := [.invalidExpression, .nestingTooDeep]

/-- There is no operand where there should be one. -/
def Misread (x : Outcome α) : Prop := ∃ e c, x = .error e c ∧ e.fault.kind ∈ missingOperand

theorem Misread.bind {r : Reader α} {c : Cursor} (h : Misread (r.run c)) (f : α → Reader β) :
    Misread ((r >>= f).run c) := by
  obtain ⟨e, c', hr, hkind⟩ := h
  exact ⟨e, c', run_bind_of_error hr f, hkind⟩

/-- Neither a star nor a caret begins a factor. -/
theorem misread_factor (m : Elementary) (frames : Nat) {c : Cursor} {a : Char}
    (ha : a = '*' ∨ a = '^') (hc : c.rest.head? = some a) :
    Misread ((read m .factor frames).run c) := by
  have htooDeep (c : Cursor) : Misread ((tooDeep : Reader Binary64).run c) :=
    ⟨_, _, run_tooDeep c, .tail _ (.head _)⟩
  have hprimary (frames : Nat) : Misread ((read m .primary frames).run c) := by
    cases frames with
    | zero => rw [read_zero]; exact htooDeep c
    | succ frames =>
      have hunexpected : Misread ((unexpected : Reader Binary64).run c) :=
        ⟨_, _, run_unexpected c, .head _⟩
      rw [run_primary, hc]
      rcases ha with rfl | rfl <;> exact hunexpected
  cases frames with
  | zero => rw [read_zero]; exact htooDeep c
  | succ frames =>
    have hpast : c.pastBlanks = c := Cursor.pastBlanks_eq_self fun b hb => by
      rw [← Option.some.inj (hc.symm.trans hb)]
      rcases ha with rfl | rfl <;> decide
    have hne : c.rest ≠ [] := fun hnil => by
      rw [hnil] at hc
      exact absurd hc nofun
    have hminus : c.rest.head? ≠ some '-' := fun hminus => by
      obtain rfl : a = '-' := Option.some.inj (hc.symm.trans hminus)
      exact absurd ha (by decide)
    rw [run_factor, hpast, if_neg hne, if_neg hminus]
    exact (hprimary frames).bind _

/-! ## Two spellings side by side -/

/-- What stands where a fault is found, after the cursor. -/
def StandsAt (c : Cursor) (e : Located) (P : Char → Prop) : Prop :=
  ∃ (w : List Char) (c₀ : Cursor) (a : Char),
    c.Reaches w c₀ ∧ e.position = c₀.offset ∧ c₀.rest.head? = some a ∧ P a

/-- A number or a name begins with the character. -/
def BeginsOperand (a : Char) : Prop := a.isAlphanum = true ∨ a = '.'

/-- The character is an operator that binds a factor. -/
def BindsFactor (a : Char) : Prop := a ∈ ['*', '/', '%', '^']

instance : DecidablePred BindsFactor := fun a => inferInstanceAs (Decidable (a ∈ _))

theorem bindsFactor_of_multiplicative? {a : Char} {o : Operator}
    (h : Operator.multiplicative? a = some o) : BindsFactor a := by
  obtain rfl := Operator.multiplicative?_eq_some h
  cases o with
  | add | sub => exact absurd h nofun
  | mul | div | mod => decide

/-- How the second run fails if the first, from `c` on, fails with `e` at `c'`. -/
inductive Fails (c : Cursor) (e : Located) (c' : Cursor) (y : Outcome α) : Prop
  /-- With the same kind of fault. If a star and a caret are next, no operator has failed. -/
  | same {f : Located} {d : Cursor} (hy : y = .error f d) (hkind : f.fault.kind = e.fault.kind)
    (hplace : e.fault.kind ∈ Fault.Kind.computational → StarCaret c'.rest →
      StandsAt c e BeginsOperand)
  /-- Neither run finds an operand. -/
  | misread (hx : e.fault.kind ∈ missingOperand) (hy : Misread y)
  /-- An operator has failed with a star and a caret next, which the second run has misread. -/
  | stranded (hx : e.fault.kind ∈ Fault.Kind.computational) (hnext : StarCaret c'.rest)
    (hplace : StandsAt c e BindsFactor) (hy : Misread y)

/-- The second run gives the same value, and stops at the same place. -/
def Matched (a : α) (c' : Cursor) (y : Outcome α) : Prop := ∃ d, y = .ok a d ∧ Starred c' d

/-- The sign of a power was looked for at the cursor, and there is none, nor could there seem to
    be one. -/
structure Passed (c : Cursor) : Prop where
  past : c.pastBlanks = c
  caret : c.rest.head? ≠ some '^'
  next : ¬ StarCaret c.rest

/-- After a factor, the runs are at the same place, or the second one has misread a star and a
    caret as the sign of a power. -/
def MatchedFactor (a : α) (c' : Cursor) (y : Outcome α) : Prop :=
  (Matched a c' y ∧ Passed c') ∨ (StarCaret c'.rest ∧ Misread y)

/-- After a term, the runs are at the same place, and no star and caret are next. -/
def MatchedTerm (a : α) (c' : Cursor) (y : Outcome α) : Prop :=
  Matched a c' y ∧ ¬ StarCaret c'.rest

/-- Outcomes of two runs, of which the first starts at `c`: if it gives a value, then `Q` holds
    of it and of the second outcome; and if it fails, the second does. -/
def Coupled (Q : α → Cursor → Outcome α → Prop) (c : Cursor) (x y : Outcome α) : Prop :=
  Ends x (fun a c' => Q a c' y) fun e c' => Fails c e c' y

variable {c c₁ c' d d₁ : Cursor} {e : Located} {Q R : α → Cursor → Outcome α → Prop}

theorem StandsAt.mono {w : List Char} (hw : c.Reaches w c₁) {P : Char → Prop}
    (h : StandsAt c₁ e P) : StandsAt c e P := by
  obtain ⟨v, c₀, a, hv, hplace, ha, hP⟩ := h
  exact ⟨w ++ v, c₀, a, hw.trans hv, hplace, ha, hP⟩

theorem Fails.mono {w : List Char} (hw : c.Reaches w c₁) {y : Outcome α}
    (h : Fails c₁ e c' y) : Fails c e c' y := by
  cases h with
  | same hy hkind hplace => exact .same hy hkind fun he hnext => (hplace he hnext).mono hw
  | misread hx hy => exact .misread hx hy
  | stranded he hnext hplace hy => exact .stranded he hnext (hplace.mono hw) hy

/-- What fails, fails in a bind. -/
theorem Fails.bind {r : Reader α} (h : Fails c e c' (r.run d)) (f : α → Reader β) :
    Fails c e c' ((r >>= f).run d) := by
  cases h with
  | same hy hkind hplace => exact .same (run_bind_of_error hy f) hkind hplace
  | misread hx hy => exact .misread hx (hy.bind f)
  | stranded he hnext hplace hy => exact .stranded he hnext hplace (hy.bind f)

theorem Coupled.imp {x y : Outcome α} (h : Coupled Q c x y)
    (hQ : ∀ a c', Q a c' y → R a c' y) : Coupled R c x y :=
  Ends.imp h hQ fun _ _ hfails => hfails

theorem Coupled.mono {w : List Char} (hw : c.Reaches w c₁) {x y : Outcome α}
    (h : Coupled Q c₁ x y) : Coupled Q c x y :=
  Ends.imp h (fun _ _ hq => hq) fun _ _ hfails => hfails.mono hw

/-- The runs of binds are coupled if those of their parts are. -/
theorem Coupled.bind {r r' : Reader α} {f f' : α → Reader β} {Q : β → Cursor → Outcome β → Prop}
    (h : Coupled Matched c (r.run c₁) (r'.run d))
    (hf : ∀ a c' d', r.run c₁ = .ok a c' → Starred c' d' →
      Coupled Q c ((f a).run c') ((f' a).run d')) :
    Coupled Q c ((r >>= f).run c₁) ((r' >>= f').run d) := by
  refine Ends.bind_of_run h (fun a c' hr ⟨d', hd, hstarred⟩ => ?_) fun e c' he => he.bind f'
  rw [run_bind_of_ok hd]
  exact hf a c' d' hr hstarred

/-- Where the first run goes on, it goes on from a place that it has reached. -/
theorem Coupled.bind_within {r r' : Reader α} {f f' : α → Reader β}
    {Q : β → Cursor → Outcome β → Prop} {w : List Char} (hw : c.Reaches w c₁) (hp : Progresses r)
    (h : Coupled Matched c₁ (r.run c₁) (r'.run d))
    (hf : ∀ a c' d' v, c.Reaches v c' → Starred c' d' →
      Coupled Q c ((f a).run c') ((f' a).run d')) :
    Coupled Q c ((r >>= f).run c₁) ((r' >>= f').run d) := by
  refine (h.mono hw).bind fun a c' d' hr hstarred => ?_
  obtain ⟨v, hv⟩ := hp.exists_reaches hr
  exact hf a c' d' _ (hw.trans hv) hstarred

/-- After factors, the runs go on from the same place, unless the second one is misread. -/
theorem Coupled.bind_factor {r r' : Reader α} {f f' : α → Reader β}
    {Q : β → Cursor → Outcome β → Prop} (h : Coupled MatchedFactor c (r.run c₁) (r'.run d))
    (hmatched : ∀ a c' d', r.run c₁ = .ok a c' → Starred c' d' → Passed c' →
      Coupled Q c ((f a).run c') ((f' a).run d'))
    (hmisread : ∀ a c' y, StarCaret c'.rest → Misread y → Coupled Q c ((f a).run c') y) :
    Coupled Q c ((r >>= f).run c₁) ((r' >>= f').run d) := by
  refine Ends.bind_of_run h (fun a c' hr hq => ?_) fun e c' he => he.bind f'
  rcases hq with ⟨⟨d', hd, hstarred⟩, hpassed⟩ | ⟨hnext, hy⟩
  · rw [run_bind_of_ok hd]
    exact hmatched a c' d' hr hstarred hpassed
  · exact hmisread a c' _ hnext (hy.bind f')

theorem coupled_pure (h : Starred c₁ d) (a : α) :
    Coupled Matched c ((pure a : Reader α).run c₁) ((pure a : Reader α).run d) := ⟨d, rfl, h⟩

/-- Faults of what is written are the same kind of fault. -/
theorem fails_of_isSyntactic {f : Located} (he : e.fault.isSyntactic = true)
    (hkind : f.fault.kind = e.fault.kind) : Fails c e c' (.error f d : Outcome α) :=
  .same rfl hkind fun hcomputational =>
    absurd (((Fault.kind_mem_computational_iff _).1 hcomputational).1.symm.trans he)
      Bool.false_ne_true

theorem coupled_unexpected : Coupled Q c ((unexpected : Reader α).run c₁)
    ((unexpected : Reader α).run d) := by
  rw [run_unexpected, run_unexpected]
  exact fails_of_isSyntactic rfl rfl

theorem coupled_expect {a : Char} (hstar : a ≠ '*') (hcaret : a ≠ '^') {fault : Fault}
    (hfault : fault.isSyntactic = true) (h : Starred c d) :
    Coupled Matched c ((expect a fault).run c) ((expect a fault).run d) := by
  rw [run_expect, run_expect]
  simp only [h.pastBlanks.head?_eq_some_iff hstar hcaret]
  split
  · rename_i ha
    exact ⟨_, rfl, h.pastBlanks.forward_one ha hcaret⟩
  · exact fails_of_isSyntactic hfault rfl

/-- What is computed has the same value, or the same fault. If a star and a caret are next, it is
    computed at an operand. -/
theorem coupled_valueAt {p q : Nat} {x : Except Fault α}
    (hQ : ∀ a, Q a c₁ ((pure a : Reader α).run d))
    (hplace : StarCaret c₁.rest → ∀ fault, StandsAt c ⟨fault, p⟩ BeginsOperand) :
    Coupled Q c ((valueAt p x).run c₁) ((valueAt q x).run d) := by
  cases x with
  | ok a => exact hQ a
  | error fault => exact .same rfl rfl fun _ hnext => hplace hnext fault

/-- What is computed with a factor has the same value or fault, or the second run is misread
    already. -/
theorem Coupled.valueAt_factor {r r' : Reader α} {g : α → Except Fault β} {q : Nat} {a : Char}
    {w : List Char} (ha : c.rest.head? = some a) (hbinds : BindsFactor a) (hw : c.Reaches w c₁)
    (hg : ∀ z fault, g z = .error fault → fault.kind ∈ Fault.Kind.computational)
    (h : Coupled MatchedFactor c₁ (r.run c₁) (r'.run d)) :
    Coupled MatchedFactor c ((r >>= fun z => Reader.valueAt c.offset (g z)).run c₁)
      ((r' >>= fun z => Reader.valueAt q (g z)).run d) := by
  have hplace (fault : Fault) : StandsAt c ⟨fault, c.offset⟩ BindsFactor :=
    ⟨[], c, a, .refl c, rfl, ha, hbinds⟩
  refine (h.mono hw).bind_factor (fun z c' d' _ hstarred hpassed => ?_)
    fun z c' y hnext hy => ?_
  · exact coupled_valueAt (fun _ => .inl ⟨⟨d', rfl, hstarred⟩, hpassed⟩) fun hnext =>
      absurd hnext hpassed.next
  · exact ends_valueAt (fun _ _ => .inr ⟨hnext, hy⟩) fun fault hfault =>
      .stranded (hg z fault hfault) hnext (hplace fault) hy

/-- What is computed with a term has the same value or fault. -/
theorem Coupled.valueAt_term {r r' : Reader α} {g : α → Except Fault β} {p q : Nat}
    (h : Coupled MatchedTerm c (r.run c₁) (r'.run d)) :
    Coupled Matched c ((r >>= fun z => Reader.valueAt p (g z)).run c₁)
      ((r' >>= fun z => Reader.valueAt q (g z)).run d) := by
  refine Ends.bind_of_run h (fun z c' _ ⟨⟨d', hd, hstarred⟩, hnext⟩ => ?_) fun e c' he => he.bind _
  rw [run_bind_of_ok hd]
  exact coupled_valueAt (fun _ => ⟨d', rfl, hstarred⟩) fun hcaret => absurd hcaret hnext

theorem coupled_number (h : Starred c d) {a : Char} (ha : c.rest.head? = some a)
    (hnumber : (a.isDigit || a = '.') = true) :
    Coupled Matched c (number.run c) (number.run d) := by
  have hbegins : BeginsOperand a := by
    rcases Bool.or_eq_true_iff.1 hnumber with hdigit | hpoint
    · exact .inl (Text.isAlphanum_of_isDigit hdigit)
    · exact .inr (of_decide_eq_true hpoint)
  have hliteral (whole fraction : List Char) {c' d' : Cursor} (h' : Starred c' d') :
      Coupled Matched c ((literal c.offset whole fraction).run c')
        ((literal d.offset whole fraction).run d') := by
    rw [literal, literal]
    split
    · exact fails_of_isSyntactic rfl rfl
    · exact coupled_valueAt (fun _ => ⟨d', rfl, h'⟩) fun _ _ =>
        ⟨[], c, a, .refl c, rfl, ha, hbegins⟩
  obtain ⟨hwhole, hpast⟩ := h.takeWhile (p := Char.isDigit) (by decide) (by decide)
  rw [run_number, run_number, hwhole]
  simp only [hpast.head?_eq_some_iff (a := '.') (by decide) (by decide)]
  split
  · rename_i hpoint
    obtain ⟨hfraction, hpast'⟩ :=
      (hpast.forward_one hpoint (by decide)).takeWhile (p := Char.isDigit) (by decide) (by decide)
    rw [hfraction]
    exact hliteral _ _ hpast'
  · exact hliteral _ _ hpast

/-! ## Signs of powers -/

/-- The sign of a power is there in both texts, or in neither; or there are a star and a caret,
    and only the text with three stars has a sign, with a star after it. -/
theorem powerSign_starred (h : Starred c d) :
    (∃ a w c' d', c.rest.head? = some a ∧ BindsFactor a ∧ c.Reaches w c' ∧ Starred c' d' ∧
      powerSign.run c = .ok true c' ∧ powerSign.run d = .ok true d') ∨
    (StarCaret c.rest ∧ powerSign.run c = .ok false c ∧
      ∃ d', powerSign.run d = .ok true d' ∧ d'.rest.head? = some '*') ∨
    (c.rest.head? ≠ some '^' ∧ ¬ StarCaret c.rest ∧
      powerSign.run c = .ok false c ∧ powerSign.run d = .ok false d) := by
  obtain ⟨k, cs⟩ := c
  obtain ⟨j, ds⟩ := d
  obtain rfl : ds = starred cs := h
  have hnone (k : Nat) {cs : List Char} (hcaret : cs.head? ≠ some '^')
      (hstars : ¬ (cs[0]? = some '*' ∧ cs[1]? = some '*')) :
      powerSign.run ⟨k, cs⟩ = .ok false ⟨k, cs⟩ := by
    rw [run_powerSign, if_neg hcaret, if_neg hstars]
  have hboth (k : Nat) (r : List Char) :
      powerSign.run ⟨k, '*' :: '*' :: r⟩ = .ok true ⟨k + 2, r⟩ := rfl
  cases cs with
  | nil =>
    have hnothing : ¬ StarCaret [] := by decide
    exact .inr (.inr ⟨nofun, hnothing, rfl, rfl⟩)
  | cons a r =>
    by_cases hcaret : a = '^'
    · subst hcaret
      exact .inl ⟨'^', _, ⟨k + 1, r⟩, ⟨j + 2, starred r⟩, rfl, by decide,
        Cursor.reaches_forward _ 1, rfl, rfl, hboth j (starred r)⟩
    have hhead : (a :: r).head? ≠ some '^' := fun hhead => hcaret (Option.some.inj hhead)
    rw [starred_cons hcaret]
    have hhead' : (a :: starred r).head? ≠ some '^' := fun hhead => hcaret (Option.some.inj hhead)
    by_cases hstar : a = '*'
    · subst hstar
      cases r with
      | nil =>
        have hnothing : ¬ StarCaret ['*'] := by decide
        exact .inr (.inr ⟨hhead, hnothing, rfl, rfl⟩)
      | cons b r =>
        by_cases hstars : b = '*'
        · subst hstars
          exact .inl ⟨'*', _, ⟨k + 2, r⟩, ⟨j + 2, starred r⟩, rfl, by decide,
            Cursor.reaches_forward _ 2, rfl, rfl, hboth j (starred r)⟩
        by_cases hsplit : b = '^'
        · subst hsplit
          exact .inr (.inl ⟨⟨r, rfl⟩, hnone k hhead fun h => hstars (Option.some.inj h.2),
            _, hboth j ('*' :: starred r), rfl⟩)
        · refine .inr (.inr ⟨hhead, fun ⟨t, ht⟩ => hsplit ?_, hnone k hhead fun h =>
            hstars (Option.some.inj h.2), ?_⟩)
          · exact (List.cons.inj (List.cons.inj ht).2).1.symm
          · rw [starred_cons hsplit] at hhead' ⊢
            exact hnone j hhead' fun h => hstars (Option.some.inj h.2)
    · exact .inr (.inr ⟨hhead, fun ⟨t, ht⟩ => hstar (List.cons.inj ht).1.symm,
        hnone k hhead fun h => hstar (Option.some.inj h.1),
        hnone j hhead' fun h => hstar (Option.some.inj h.1)⟩)

end Reader

end Calculator
