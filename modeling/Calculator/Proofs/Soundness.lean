import Calculator.Grammar.Denotation
import Calculator.Proofs.Faults
import Calculator.Proofs.Follow

/-!
# What is read is a tree

A reader that gives a value has read the text of a tree, and the value is the
denotation of the tree (`Found`). A reader that fails because of what is written, and
not of what it is worth, has read the beginning of the text of some tree (`Stuck`): up to
where it stopped, nothing was wrong yet. The two are proved together (`ends_read`), since
what is read before a failure is made of trees that were found.

Each level of the grammar is used through what can be made at it: a chain out of a chain
and an operand (`Chains`), a factor out of a primary, and so on.
-/

namespace Calculator

open Grammar

/-- An operator between terms is one of the grammar, with its character. -/
theorem Operator.exists_of_additive? {a : Char} {o : Operator} (h : additive? a = some o) :
    ∃ o' : Additive, o'.1.char = a ∧ o'.1 = o := by
  have hc := additive?_eq_some h
  cases o with
  | add => exact ⟨⟨.add, .inl rfl⟩, hc, rfl⟩
  | sub => exact ⟨⟨.sub, .inr rfl⟩, hc, rfl⟩
  | mul | div | mod =>
    rw [← hc] at h
    exact absurd h (by decide)

/-- An operator between factors is one of the grammar, with its character. -/
theorem Operator.exists_of_multiplicative? {a : Char} {o : Operator}
    (h : multiplicative? a = some o) : ∃ o' : Multiplicative, o'.1.char = a ∧ o'.1 = o := by
  have hc := multiplicative?_eq_some h
  cases o with
  | mul => exact ⟨⟨.mul, .inl rfl⟩, hc, rfl⟩
  | div => exact ⟨⟨.div, .inr (.inl rfl)⟩, hc, rfl⟩
  | mod => exact ⟨⟨.mod, .inr (.inr rfl)⟩, hc, rfl⟩
  | add | sub =>
    rw [← hc] at h
    exact absurd h (by decide)

/-- Blanks in a row are blanks. -/
def Grammar.Blanks.append (b b' : Blanks) : Blanks :=
  ⟨b.1 ++ b'.1, fun a h => (List.mem_append.1 h).elim (b.2 a) (b'.2 a)⟩

namespace Level

/-- A text of the level. (What is read as a call is a primary.) -/
def Spells : Level → List Char → Prop
  | expression, w => ∃ e : Expression, e.chars = w
  | term, w => ∃ t : Term, t.chars = w
  | factor, w => ∃ f : Factor, f.chars = w
  | primary, w | call, w => ∃ p : Primary, p.chars = w

/-- A text of the level, with its value where it starts at an offset. -/
def Denotes (m : Elementary) : Level → Nat → List Char → Binary64 → Prop
  | expression, k, w, x => ∃ e : Expression, e.chars = w ∧ e.denote m k = .ok x
  | term, k, w, x => ∃ t : Term, t.chars = w ∧ t.denote m k = .ok x
  | factor, k, w, x => ∃ f : Factor, f.chars = w ∧ f.denote m k = .ok x
  | primary, k, w, x | call, k, w, x => ∃ p : Primary, p.chars = w ∧ p.denote m k = .ok x

/-- The beginning of a text of the level. -/
def Begins (l : Level) (w : List Char) : Prop := ∃ z, l.Spells (w ++ z)

/-- Where a level may be read: a call only at a letter. -/
def Admits (l : Level) (c : Cursor) : Prop :=
  l = call → ∃ a, c.rest.head? = some a ∧ a.isAlpha = true

variable {m : Elementary} {k : Nat} {w : List Char} {x : Binary64}

theorem Denotes.spells {l : Level} (h : l.Denotes m k w x) : l.Spells w := by
  cases l <;> exact h.imp fun _ h => h.1

theorem Spells.begins {l : Level} (h : l.Spells w) : l.Begins w := ⟨[], by rwa [List.append_nil]⟩

/-! ## Texts made of texts -/

theorem Spells.term (h : factor.Spells w) : term.Spells w := by
  obtain ⟨f, hf⟩ := h
  exact ⟨.factor f, hf⟩

theorem Spells.expression (h : Level.term.Spells w) : Level.expression.Spells w := by
  obtain ⟨t, ht⟩ := h
  exact ⟨.term t, ht⟩

theorem Spells.factor (b : Blanks) (h : primary.Spells w) : Level.factor.Spells (b.1 ++ w) := by
  obtain ⟨p, rfl⟩ := h
  exact ⟨.primary b p, rfl⟩

theorem Spells.neg (b : Blanks) (h : Level.factor.Spells w) :
    Level.factor.Spells (b.1 ++ '-' :: w) := by
  obtain ⟨f, rfl⟩ := h
  exact ⟨.neg b f, rfl⟩

theorem Spells.power (b b' : Blanks) (sign : PowerSign) {v : List Char} (h : primary.Spells v)
    (h' : Level.factor.Spells w) :
    Level.factor.Spells (b.1 ++ v ++ b'.1 ++ sign.chars ++ w) := by
  obtain ⟨p, rfl⟩ := h
  obtain ⟨f, rfl⟩ := h'
  exact ⟨.power b p b' sign f, rfl⟩

theorem Spells.group (b : Blanks) (h : Level.expression.Spells w) :
    primary.Spells ('(' :: w ++ b.1 ++ [')']) := by
  obtain ⟨e, rfl⟩ := h
  exact ⟨.group e b, rfl⟩

theorem Spells.call (name : Name) (b b' : Blanks) (h : Level.expression.Spells w) :
    primary.Spells (name.chars ++ b.1 ++ '(' :: w ++ b'.1 ++ [')']) := by
  obtain ⟨e, rfl⟩ := h
  exact ⟨.call name b e b', rfl⟩

/-- One digit is a text of every level, so every text may be completed by one. -/
theorem spells_zero (l : Level) : l.Spells ['0'] := by
  have hp : primary.Spells ['0'] := ⟨.number (.whole ⟨['0'], by simp⟩ (by simp)), rfl⟩
  have hf : Level.factor.Spells ['0'] := hp.factor ⟨[], by simp⟩
  cases l with
  | expression => exact hf.term.expression
  | term => exact hf.term
  | factor => exact hf
  | primary | call => exact hp

/-- Before the beginning of a text of the level there is one, too. -/
theorem Begins.of_append {l : Level} {v : List Char} (h : l.Begins (v ++ w)) : l.Begins v := by
  obtain ⟨z, hz⟩ := h
  exact ⟨w ++ z, by rwa [← List.append_assoc]⟩

theorem Begins.append {l l' : Level} {v : List Char} (h : ∀ w, l.Spells w → l'.Begins (v ++ w))
    (hw : l.Begins w) : l'.Begins (v ++ w) := by
  obtain ⟨z, hz⟩ := hw
  have := h _ hz
  rw [← List.append_assoc] at this
  exact this.of_append

end Level

namespace Reader

/-- From the cursor `c` to `c'` there stand a text of the level, with the value `x`, and
    blanks. -/
def Found (m : Elementary) (l : Level) (c : Cursor) (x : Binary64) (c' : Cursor) : Prop :=
  ∃ w, ∃ b : Blanks, c.Reaches (w ++ b.1) c' ∧ l.Denotes m c.offset w x

/-- A failure that stopped at `c'` past the text `w` is located at `c'`, or, if it is a
    point without digits, at the point, which is the last thing read. -/
def Blames (e : Located) (w : List Char) (c' : Cursor) : Prop :=
  if e.fault = .malformedNumber then w.getLast? = some '.' ∧ e.position + 1 = c'.offset
  else e.position = c'.offset

/-- If a failure is about what is written, a text of the level begins from the cursor
    `c` to `c'`, where it stopped. -/
def Stuck (l : Level) (c : Cursor) (e : Located) (c' : Cursor) : Prop :=
  e.fault.isSyntactic = true → ∃ w, c.Reaches w c' ∧ l.Begins w ∧ Blames e w c'

variable {m : Elementary} {l l' : Level} {c c₁ c' : Cursor} {x y z : Binary64} {e : Located}

theorem stuck_of_isSyntactic (h : e.fault.isSyntactic = false) : Stuck l c e c' :=
  fun he => absurd (h.symm.trans he) Bool.false_ne_true

/-- A failure within a text is one of the text around it. -/
theorem Stuck.within {v : List Char} (hv : c.Reaches v c₁)
    (hl : ∀ w, l.Spells w → l'.Begins (v ++ w)) (h : Stuck l c₁ e c') : Stuck l' c e c' := by
  intro he
  obtain ⟨w, hw, hbegins, hblames⟩ := h he
  refine ⟨v ++ w, hv.trans hw, hbegins.append hl, ?_⟩
  rw [Blames] at hblames ⊢
  split
  · rename_i hf
    rw [if_pos hf] at hblames
    refine ⟨?_, hblames.2⟩
    rw [List.getLast?_append, hblames.1]
    rfl
  · rename_i hf
    rwa [if_neg hf] at hblames

/-- A part of a text is read past the text `v`: what goes wrong in the part goes wrong in
    the whole, and what is found is gone on with. -/
theorem ends_bind_within {β : Type} {r : Reader Binary64} {f : Binary64 → Reader β}
    {R : β → Cursor → Prop} {v : List Char} (hv : c.Reaches v c₁)
    (h : Ends (r.run c₁) (Found m l c₁) (Stuck l c₁))
    (hl : ∀ w, l.Spells w → l'.Begins (v ++ w))
    (hf : ∀ x c', Found m l c₁ x c' → Ends ((f x).run c') R (Stuck l' c)) :
    Ends ((r >>= f).run c₁) R (Stuck l' c) :=
  (h.imp (fun _ _ hx => hx) fun _ _ => Stuck.within hv hl).bind hf

/-- A failure at the cursor, where a text of the level begins. -/
theorem stuck_at {fault : Fault} {w : List Char} (hfault : fault ≠ .malformedNumber)
    (hw : c.Reaches w c') (hbegins : l.Begins w) : Stuck l c ⟨fault, c'.offset⟩ c' :=
  fun _ => ⟨w, hw, hbegins, by rw [Blames, if_neg hfault]⟩

/-! ## Chains -/

/-- Texts of the level `outer` are made of those of `inner`, joined by the operators of
    a table and grouped to the left. -/
structure Chains (m : Elementary) (outer inner : Level) (operator? : Char → Option Operator) :
    Prop where
  single {k : Nat} {w : List Char} {x : Binary64} :
    inner.Denotes m k w x → outer.Denotes m k w x
  join {k : Nat} {v w : List Char} {x y z : Binary64} {a : Char} {o : Operator} (b : Blanks) :
    operator? a = some o → outer.Denotes m k v x →
    inner.Denotes m (k + v.length + b.1.length + 1) w y → o.apply x y = .ok z →
    outer.Denotes m k (v ++ b.1 ++ a :: w) z
  spells_single {w : List Char} : inner.Spells w → outer.Spells w
  spells_join {v w : List Char} {a : Char} {o : Operator} (b : Blanks) :
    operator? a = some o → outer.Spells v → inner.Spells w → outer.Spells (v ++ b.1 ++ a :: w)

theorem chains_additive (m : Elementary) : Chains m .expression .term Operator.additive? where
  single := fun ⟨t, ht, hx⟩ => ⟨.term t, ht, hx⟩
  join b ha := by
    rintro ⟨e, rfl, he⟩ ⟨t, rfl, ht⟩ hz
    obtain ⟨o, rfl, rfl⟩ := Operator.exists_of_additive? ha
    refine ⟨.join e b o t, rfl, ?_⟩
    rw [Expression.denote, he]
    show (t.denote m _ >>= fun y => locate _ (o.1.apply _ y)) = _
    rw [ht]
    show locate _ (o.1.apply _ _) = _
    rw [hz]
    rfl
  spells_single := .expression
  spells_join b ha := by
    rintro ⟨e, rfl⟩ ⟨t, rfl⟩
    obtain ⟨o, rfl, _⟩ := Operator.exists_of_additive? ha
    exact ⟨.join e b o t, rfl⟩

theorem chains_multiplicative (m : Elementary) :
    Chains m .term .factor Operator.multiplicative? where
  single := fun ⟨f, hf, hx⟩ => ⟨.factor f, hf, hx⟩
  join b ha := by
    rintro ⟨t, rfl, ht⟩ ⟨f, rfl, hf⟩ hz
    obtain ⟨o, rfl, rfl⟩ := Operator.exists_of_multiplicative? ha
    refine ⟨.join t b o f, rfl, ?_⟩
    rw [Term.denote, ht]
    show (f.denote m _ >>= fun y => locate _ (o.1.apply _ y)) = _
    rw [hf]
    show locate _ (o.1.apply _ _) = _
    rw [hz]
    rfl
  spells_single := .term
  spells_join b ha := by
    rintro ⟨t, rfl⟩ ⟨f, rfl⟩
    obtain ⟨o, rfl, _⟩ := Operator.exists_of_multiplicative? ha
    exact ⟨.join t b o f, rfl⟩

/-- Blanks that are passed at the cursor. -/
def blanksAt (c : Cursor) : Blanks :=
  ⟨c.rest.takeWhile Text.isBlank, List.all_eq_true.1 List.all_takeWhile⟩

/-- What is found may have more blanks after it. -/
theorem Found.pastBlanks (h : Found m l c x c') : Found m l c x c'.pastBlanks := by
  obtain ⟨w, b, hc, hx⟩ := h
  refine ⟨w, b.append (blanksAt c'), ?_, hx⟩
  have := hc.trans c'.reaches_pastBlanks
  rwa [List.append_assoc] at this

variable {outer inner : Level} {operator? : Char → Option Operator}

/-- If the operands of a chain are sound, so is the chain. -/
theorem ends_chain_of_chains {operand : Reader Binary64} (hp : Progresses operand)
    (hchains : Chains m outer inner operator?)
    (h : ∀ c, Ends (operand.run c) (Found m inner c) (Stuck inner c)) (c : Cursor) :
    Ends ((chain operator? operand).run c) (Found m outer c) (Stuck outer c) := by
  -- The invariant is that what is read so far is a chain of its own.
  refine (ends_chain hp (I := Found m outer c) (E := Stuck outer c) ?_ ?_).imp
    (fun _ _ ⟨_, hi, hc, _⟩ => hc ▸ hi.pastBlanks) fun _ _ he => he
  · refine (h c).imp (fun x c' => ?_) fun e c' => ?_
    · rintro ⟨w, b, hw, hx⟩
      exact ⟨w, b, hw, hchains.single hx⟩
    · exact Stuck.within (.refl c) fun w hw => (hchains.spells_single hw).begins
  · intro x c₁ o hx ho
    obtain ⟨a, ha, hao⟩ := Option.bind_eq_some_iff.1 ho
    obtain ⟨v, b, hv, hx⟩ := hx.pastBlanks
    have hlink := hv.trans (Cursor.reaches_forward_one ha)
    rw [chainLink]
    refine ends_bind_within hlink (h _) (fun w hw => ?_) ?_
    · have := (hchains.spells_join b hao hx.spells hw).begins
      rwa [List.append_assoc, List.append_assoc, List.singleton_append, ← List.append_assoc]
    · rintro y c₂ ⟨w, b', hw, hy⟩
      refine ends_valueAt (fun z hz => ?_) fun fault hfault => stuck_of_isSyntactic ?_
      · refine ⟨v ++ b.1 ++ a :: w, b', ?_, hchains.join b hao hx ?_ hz⟩
        · have := hlink.trans hw
          simpa only [List.append_assoc, List.cons_append, List.nil_append] using this
        · rw [hlink.offset] at hy
          simpa only [List.length_append, List.length_singleton, Nat.add_assoc] using hy
      · exact isSyntactic_of_apply hfault

/-! ## Primaries -/

theorem ends_literal {n : Numeral} {whole fraction : List Char}
    (hparts : n.parts = (whole, fraction)) (hdigits : ¬(whole = [] ∧ fraction = []))
    (hc : c.Reaches n.chars c') :
    Ends ((literal c.offset whole fraction).run c') (Found m .primary c) (Stuck .primary c) := by
  have hsome : ¬(whole.isEmpty && fraction.isEmpty) = true := by simpa using hdigits
  rw [literal, if_neg hsome]
  refine ends_valueAt (fun x hx => ?_) fun fault hfault =>
    stuck_of_isSyntactic (isSyntactic_of_checkFinite hfault)
  refine ⟨n.chars, ⟨[], List.forall_mem_nil _⟩, by rwa [List.append_nil], .number n, rfl, ?_⟩
  rw [Primary.denote, Numeral.value, hparts, hx]
  rfl

/-- A number that is begun is read as one, or is a point without digits. -/
theorem ends_number (h : ∃ a, c.rest.head? = some a ∧ (a.isDigit = true ∨ a = '.')) :
    Ends (number.run c) (Found m .primary c) (Stuck .primary c) := by
  obtain ⟨a, ha, hnumber⟩ := h
  have hwhole := c.reaches_takeWhile Char.isDigit
  have hdigits : ∀ d ∈ c.rest.takeWhile Char.isDigit, d.isDigit = true :=
    List.all_eq_true.1 List.all_takeWhile
  rw [run_number]
  dsimp only
  split
  · rename_i hpoint
    have hpointed := hwhole.trans (Cursor.reaches_forward_one hpoint)
    generalize (c.forward (c.rest.takeWhile Char.isDigit).length).forward 1 = c₁ at *
    have hfraction := hpointed.trans (c₁.reaches_takeWhile Char.isDigit)
    have hdigits' : ∀ d ∈ c₁.rest.takeWhile Char.isDigit, d.isDigit = true :=
      List.all_eq_true.1 List.all_takeWhile
    by_cases hsome : c.rest.takeWhile Char.isDigit = [] ∧ c₁.rest.takeWhile Char.isDigit = []
    · rw [hsome.1, hsome.2] at hfraction ⊢
      -- A point alone: it begins a number, and a digit would have completed it.
      refine fun _ => ⟨['.'], hfraction, ⟨['0'], ?_⟩, ?_⟩
      · exact ⟨.number (.pointed ⟨[], nofun⟩ ⟨['0'], by simp⟩ (.inr (by simp))), rfl⟩
      · rw [Blames, if_pos rfl, hfraction.offset]
        exact ⟨rfl, rfl⟩
    · refine ends_literal (n := .pointed ⟨_, hdigits⟩ ⟨_, hdigits'⟩ ?_) rfl hsome ?_
      · exact Decidable.not_and_iff_or_not.1 hsome
      · simpa only [Numeral.chars, List.append_assoc, List.cons_append, List.nil_append]
          using hfraction
  · rename_i hpoint
    -- There is no point, so the number is begun by a digit.
    have hsome : c.rest.takeWhile Char.isDigit ≠ [] := by
      rcases hnumber with hdigit | rfl
      · obtain ⟨r, hr⟩ := List.head?_eq_some_iff.1 ha
        rw [hr, List.takeWhile_cons_of_pos hdigit]
        exact List.cons_ne_nil _ _
      · intro hnil
        rw [hnil] at hpoint
        exact hpoint ha
    exact ends_literal (n := .whole ⟨_, hdigits⟩ hsome) rfl (fun h => hsome h.1) hwhole

/-- The levels that any cursor admits are sound with the given frames. -/
def Sound (m : Elementary) (frames : Nat) : Prop :=
  ∀ l c, l.Admits c → Ends ((read m l frames).run c) (Found m l c) (Stuck l c)

variable {frames : Nat}

/-- Only calls are not admitted everywhere. -/
theorem Sound.ends (h : Sound m frames) (l : Level) (hl : l ≠ .call) (c : Cursor) :
    Ends ((read m l frames).run c) (Found m l c) (Stuck l c) :=
  h l c fun hcall => absurd hcall hl

/-- A closing parenthesis is found past an expression, or is all that is missing. -/
theorem ends_close {after : Bool} {v : List Char} {R : Unit → Cursor → Prop}
    (hv : c.Reaches v c₁) (hx : Found m .expression c₁ x c')
    (hspells : ∀ w, Level.expression.Spells w → ∀ b : Blanks,
      Level.primary.Spells (v ++ w ++ b.1 ++ [')']))
    (hR : ∀ w, ∀ b : Blanks, Level.expression.Denotes m c₁.offset w x →
      c.Reaches (v ++ w ++ b.1 ++ [')']) (c'.pastBlanks.forward 1) →
      R () (c'.pastBlanks.forward 1)) :
    Ends ((expect ')' (.unclosed after)).run c') R (Stuck .primary c) := by
  obtain ⟨w, b, hw, hx⟩ := hx.pastBlanks
  have hreach := hv.trans hw
  rw [← List.append_assoc] at hreach
  rw [run_expect]
  split
  · rename_i hclose
    exact hR w b hx (hreach.trans (Cursor.reaches_forward_one hclose))
  · exact stuck_at nofun hreach ⟨[')'], hspells w hx.spells b⟩

theorem ends_group (h : Sound m frames) (ha : c.rest.head? = some '(') :
    Ends ((group m frames).run (c.forward 1)) (Found m .primary c) (Stuck .primary c) := by
  have hopen := Cursor.reaches_forward_one ha
  have hspells (w : List Char) (hw : Level.expression.Spells w) (b : Blanks) :
      Level.primary.Spells (['('] ++ w ++ b.1 ++ [')']) := hw.group b
  rw [group]
  refine ends_bind_within hopen (h.ends .expression (by decide) _) (fun w hw => ?_)
    fun x c' hx => ?_
  · have := hspells w hw ⟨[], nofun⟩
    rw [List.append_nil] at this
    exact ⟨_, this⟩
  · refine Ends.bind (Q := fun _ => Found m .primary c x) ?_ fun _ _ hx => hx
    refine ends_close hopen hx hspells fun w b hx hreach => ?_
    obtain ⟨e, rfl, he⟩ := hx
    refine ⟨_, ⟨[], nofun⟩, by rw [List.append_nil]; exact hreach, .group e b, rfl, ?_⟩
    rw [Primary.denote]
    rw [hopen.offset] at he
    exact he

/-- A call is read past its name. -/
theorem ends_argument (h : Sound m frames) {name : Name} (hname : c.Reaches name.chars c₁) :
    Ends ((argument m frames c.offset (String.ofList name.chars)).run c₁) (Found m .primary c)
      (Stuck .primary c) := by
  let between := blanksAt c₁
  have hpast : c.Reaches (name.chars ++ between.1) c₁.pastBlanks :=
    hname.trans c₁.reaches_pastBlanks
  have hspells (w : List Char) (hw : Level.expression.Spells w) (b : Blanks) :
      Level.primary.Spells (name.chars ++ between.1 ++ ['('] ++ w ++ b.1 ++ [')']) := by
    have := hw.call name between b
    simpa only [List.append_assoc, List.cons_append, List.nil_append] using this
  rw [argument]
  refine Ends.bind (Q := fun _ => c.Reaches (name.chars ++ between.1 ++ ['('])) ?_
    fun _ c₂ hopen => ?_
  · rw [run_expect]
    split
    · rename_i hopen
      exact hpast.trans (Cursor.reaches_forward_one hopen)
    · have := hspells _ (Level.spells_zero .expression) ⟨[], nofun⟩
      simp only [List.append_assoc] at this
      -- What is missing is all after the name, so a whole argument completes the text.
      exact stuck_at nofun hpast ⟨_, by rwa [List.append_assoc]⟩
  refine ends_bind_within hopen (h.ends .expression (by decide) _) (fun w hw => ?_)
    fun x c' hx => ?_
  · have := hspells w hw ⟨[], nofun⟩
    rw [List.append_nil] at this
    exact ⟨_, this⟩
  refine Ends.bind (Q := fun _ c'' => ∃ w, ∃ b : Blanks, Level.expression.Denotes m c₂.offset w x ∧
    c.Reaches (name.chars ++ between.1 ++ ['('] ++ w ++ b.1 ++ [')']) c'') ?_ ?_
  · exact ends_close hopen hx hspells fun w b hx hreach => ⟨w, b, hx, hreach⟩
  rintro _ c'' ⟨w, b, ⟨e, rfl, he⟩, hreach⟩
  refine ends_valueAt (fun z hz => ?_) fun fault hfault =>
    stuck_of_isSyntactic (isSyntactic_of_applyNamed hfault)
  refine ⟨_, ⟨[], nofun⟩, by rw [List.append_nil]; exact hreach, .call name between e b, ?_, ?_⟩
  · simp only [Primary.chars, List.append_assoc, List.cons_append, List.nil_append]
  · rw [hopen.offset] at he
    simp only [List.length_append, List.length_singleton, ← Nat.add_assoc] at he
    rw [Primary.denote, he]
    show locate _ (applyNamed m _ x) = _
    rw [hz]
    rfl

/-! ## Factors -/

/-- The sign of a power, if it is found. -/
theorem reaches_powerSign (c : Cursor) :
    ∃ b c', powerSign.run c = .ok b c' ∧
      (b = true → ∃ sign : PowerSign, c.Reaches sign.chars c') ∧ (b = false → c' = c) := by
  rw [run_powerSign]
  split
  · rename_i h
    exact ⟨true, _, rfl, fun _ => ⟨.caret, Cursor.reaches_forward_one h⟩, nofun⟩
  · split
    · rename_i h
      refine ⟨true, _, rfl, fun _ => ⟨.stars, ?_⟩, nofun⟩
      have htake : c.rest.take 2 = ['*', '*'] := by
        rw [List.take_add_one, List.take_add_one, h.1, h.2]
        rfl
      have := c.reaches_forward 2
      rwa [htake] at this
    · exact ⟨false, _, rfl, nofun, fun _ => rfl⟩

/-- A primary past blanks is a factor, with or without an exponent. -/
theorem ends_powered (h : Sound m frames) (b : Blanks) (hb : c.Reaches b.1 c₁) :
    Ends ((powered m frames).run c₁) (Found m .factor c) (Stuck .factor c) := by
  rw [powered]
  refine ends_bind_within hb (h.ends .primary (by decide) _) (fun w hw => (hw.factor b).begins)
    fun x c₂ hx => ?_
  rw [run_skipBlanks_bind]
  obtain ⟨w, b', hw, ⟨p, rfl, hp⟩⟩ := hx.pastBlanks
  have hbase := hb.trans hw
  generalize c₂.pastBlanks = c₃ at *
  rw [raised, run_position_bind]
  obtain ⟨found, c₄, hrun, hsign, hnone⟩ := reaches_powerSign c₃
  rw [run_bind_of_ok hrun]
  rw [hb.offset] at hp
  cases found with
  | false =>
    rw [hnone rfl]
    refine ⟨b.1 ++ p.chars, b', by rwa [List.append_assoc], .primary b p, rfl, ?_⟩
    rw [Factor.denote]
    exact hp
  | true =>
    obtain ⟨sign, hsign⟩ := hsign rfl
    have hpast := hbase.trans hsign
    refine ends_bind_within hpast (h.ends .factor (by decide) _) (fun w hw => ?_) ?_
    · have := (Level.Spells.power b b' sign ⟨p, rfl⟩ hw).begins
      simpa only [List.append_assoc] using this
    · rintro y c' ⟨w, b'', hw, ⟨f, rfl, hf⟩⟩
      refine ends_valueAt (fun z hz => ?_) fun fault hfault =>
        stuck_of_isSyntactic (isSyntactic_of_power hfault)
      refine ⟨_, b'', ?_, .power b p b' sign f, rfl, ?_⟩
      · have := hpast.trans hw
        simpa only [Factor.chars, List.append_assoc] using this
      · rw [hpast.offset] at hf
        simp only [List.length_append, ← Nat.add_assoc] at hf
        rw [Factor.denote, hp]
        show (f.denote m _ >>= fun y => locate _ (power m x y)) = _
        rw [hf]
        show locate _ (power m x y) = _
        rw [hz]
        rfl

/-! ## All levels -/

/-- Where a call is admitted, the longest run of letters and digits is a name. -/
theorem exists_name {a : Char} (ha : c.rest.head? = some a) (hletter : a.isAlpha = true) :
    ∃ name : Name, name.chars = c.rest.takeWhile Char.isAlphanum := by
  obtain ⟨r, hr⟩ := List.head?_eq_some_iff.1 ha
  refine ⟨⟨a, r.takeWhile Char.isAlphanum, hletter, List.all_eq_true.1 List.all_takeWhile⟩, ?_⟩
  rw [hr, List.takeWhile_cons_of_pos (Text.isAlphanum_of_isAlpha hletter)]
  rfl

/-- What a level reads is the text of a tree, or the beginning of one. -/
theorem ends_read (m : Elementary) (frames : Nat) : Sound m frames := by
  induction frames with
  | zero =>
    intro l c _
    rw [read_zero, run_tooDeep]
    exact stuck_of_isSyntactic rfl
  | succ frames ih =>
    intro l c hadmits
    cases l with
    | expression =>
      rw [read_expression]
      exact ends_chain_of_chains (progresses_read m frames .term) (chains_additive m)
        (ih.ends .term (by decide)) c
    | term =>
      rw [read_term]
      exact ends_chain_of_chains (progresses_read m frames .factor) (chains_multiplicative m)
        (ih.ends .factor (by decide)) c
    | factor =>
      have hblanks : c.Reaches (blanksAt c).1 c.pastBlanks := c.reaches_pastBlanks
      rw [run_factor]
      split
      · -- The text ends where a factor may still begin.
        exact stuck_at (by decide) hblanks
          ⟨['0'], (Level.spells_zero .primary).factor (blanksAt c)⟩
      · split
        · rename_i hminus
          have hpast := hblanks.trans (Cursor.reaches_forward_one hminus)
          refine ends_bind_within hpast (ih.ends .factor (by decide) _) (fun w hw => ?_) ?_
          · have := (hw.neg (blanksAt c)).begins
            rwa [List.append_assoc, List.singleton_append]
          · rintro x c' ⟨w, b, hw, ⟨f, rfl, hf⟩⟩
            refine ⟨_, b, ?_, .neg (blanksAt c) f, rfl, ?_⟩
            · have := hpast.trans hw
              simpa only [Factor.chars, List.append_assoc, List.cons_append, List.nil_append]
                using this
            · rw [hpast.offset, List.length_append, List.length_singleton, ← Nat.add_assoc] at hf
              rw [Factor.denote, hf]
              rfl
        · exact ends_powered ih _ hblanks
    | primary =>
      have hfresh : Ends ((unexpected : Reader Binary64).run c) (Found m .primary c)
          (Stuck .primary c) := by
        rw [run_unexpected]
        exact stuck_at Fault.noConfusion (.refl c) ⟨['0'], Level.spells_zero .primary⟩
      rw [run_primary]
      split
      · exact hfresh
      · rename_i a ha
        split
        · rename_i hopen
          exact ends_group ih (ha.trans (congrArg some hopen))
        · split
          · rename_i hletter
            exact ih .call c fun _ => ⟨a, ha, hletter⟩
          · split
            · rename_i hnumber
              exact ends_number ⟨a, ha, by simpa using hnumber⟩
            · exact hfresh
    | call =>
      obtain ⟨a, ha, hletter⟩ := hadmits rfl
      obtain ⟨name, hname⟩ := exists_name ha hletter
      have hpast := c.reaches_takeWhile Char.isAlphanum
      rw [run_call, ← hname]
      rw [← hname] at hpast
      exact ends_argument ih hpast

/-! ## Whole texts -/

/-- A text with a value is that of a sentence which denotes the value. A text in which
    something is badly written begins, up to where reading stopped, as some sentence. -/
theorem ends_whole (m : Elementary) (frames : Nat) (s : String) :
    Ends ((whole m frames).run (Cursor.start s))
      (fun x _ => ∃ t : Sentence, t.text = s ∧ t.denote m = .ok x)
      (fun e c' => e.fault.isSyntactic = true →
        ∃ w, (Cursor.start s).Reaches w c' ∧ (∃ t : Sentence, w <+: t.chars) ∧ Blames e w c') := by
  rw [whole]
  refine Ends.bind (Q := fun x => Found m .expression (Cursor.start s) x) ?_ fun x c' hx => ?_
  · refine ((ends_read m frames).ends .expression (by decide) _).imp (fun _ _ hx => hx)
      fun e c' he hsyntax => ?_
    obtain ⟨w, hw, ⟨z, e', hz⟩, hblames⟩ := he hsyntax
    refine ⟨w, hw, ⟨⟨e', ⟨[], nofun⟩⟩, z, ?_⟩, hblames⟩
    rw [Sentence.chars, hz, List.append_nil]
  · rw [run_skipBlanks_bind, run_atEnd_bind]
    obtain ⟨w, b, hw, ⟨e, rfl, he⟩⟩ := hx.pastBlanks
    cases hend : c'.pastBlanks.rest with
    | nil =>
      refine ⟨⟨e, b⟩, ?_, he⟩
      have hchars : s.toList = e.chars ++ b.1 ++ c'.pastBlanks.rest := hw.rest
      rw [hend, List.append_nil] at hchars
      rw [Sentence.text, Sentence.chars, ← hchars, String.ofList_toList]
    | cons a r =>
      intro _
      refine ⟨_, hw, ⟨⟨e, b⟩, List.prefix_refl _⟩, ?_⟩
      rw [Blames, if_neg nofun]

end Reader

end Calculator
