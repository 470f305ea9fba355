import Calculator.Grammar.Tree
import Calculator.Proofs.Levels

/-!
# What may follow

The text of a tree does not show by itself where it ends: `1 + 2` goes on as
`1 + 23` or `1 + 2 * 3`. It ends where, past blanks, something stands that cannot
belong to it, and for each level of the grammar that is one of a few characters, or
the end of the text (`Follows`). What closes a level closes the levels within it;
and in a tree each part is followed by what may follow it.
-/

namespace Calculator

namespace Text

/-- The codes of the letters. -/
theorem toNat_of_isAlpha {a : Char} (h : a.isAlpha = true) :
    65 ≤ a.toNat ∧ a.toNat ≤ 90 ∨ 97 ≤ a.toNat ∧ a.toNat ≤ 122 := by
  have hcodes : (decide ('A'.val ≤ a.val ∧ a.val ≤ 'Z'.val) ||
      (decide ('a'.val ≤ a.val) && decide (a.val ≤ 'z'.val))) = true := h
  simp only [Bool.or_eq_true, Bool.and_eq_true, decide_eq_true_eq, UInt32.le_iff_toNat_le] at hcodes
  exact hcodes

/-- The codes of the digits. -/
theorem toNat_of_isDigit {a : Char} (h : a.isDigit = true) : 48 ≤ a.toNat ∧ a.toNat ≤ 57 := by
  rw [Char.isDigit, Bool.and_eq_true, decide_eq_true_eq, decide_eq_true_eq] at h
  exact h

/-- Blanks are neither letters, digits nor any sign of the grammar. -/
theorem isBlank_eq_false_of_isAlphanum {a : Char} (h : a.isAlphanum = true) :
    isBlank a = false := by
  rw [Char.isAlphanum, Bool.or_eq_true] at h
  have hcodes := h.imp toNat_of_isAlpha toNat_of_isDigit
  simp only [isBlank, Bool.or_eq_false_iff, Bool.and_eq_false_iff, decide_eq_false_iff_not,
    beq_eq_false_iff_ne]
  omega

theorem isAlphanum_of_isDigit {a : Char} (h : a.isDigit = true) : a.isAlphanum = true := by
  simp [Char.isAlphanum, h]

theorem isAlphanum_of_isAlpha {a : Char} (h : a.isAlpha = true) : a.isAlphanum = true := by
  simp [Char.isAlphanum, h]

/-- A letter is no digit. -/
theorem isDigit_eq_false_of_isAlpha {a : Char} (h : a.isAlpha = true) : a.isDigit = false := by
  have hletter := toNat_of_isAlpha h
  rw [Bool.eq_false_iff]
  intro hdigit
  have := toNat_of_isDigit hdigit
  omega

/-- The longest run of a class is a given one if the text goes on outside the
    class. -/
theorem takeWhile_append_of_head? {p : Char → Bool} {w r : List Char}
    (hw : ∀ a ∈ w, p a = true) (hr : ∀ a, r.head? = some a → p a = false) :
    (w ++ r).takeWhile p = w := by
  rw [List.takeWhile_append_of_pos hw]
  cases r with
  | nil => rw [List.takeWhile_nil, List.append_nil]
  | cons a r =>
    rw [List.takeWhile_cons_of_neg (by rw [hr a rfl]; exact Bool.false_ne_true), List.append_nil]

theorem dropWhile_append_of_head? {p : Char → Bool} {w r : List Char}
    (hw : ∀ a ∈ w, p a = true) (hr : ∀ a, r.head? = some a → p a = false) :
    (w ++ r).dropWhile p = r := by
  have h := List.takeWhile_append_dropWhile (p := p) (l := w ++ r)
  rw [takeWhile_append_of_head? hw hr] at h
  exact List.append_cancel_left h

/-- Blanks that are dropped may also stay. -/
theorem dropWhile_isBlank_append {b : List Char} (hb : ∀ a ∈ b, isBlank a = true)
    (r : List Char) : (b ++ r).dropWhile isBlank = r.dropWhile isBlank :=
  List.dropWhile_append_of_pos hb

theorem dropWhile_isBlank_cons {a : Char} (ha : isBlank a = false) (r : List Char) :
    (a :: r).dropWhile isBlank = a :: r :=
  List.dropWhile_cons_of_neg (by rw [ha]; exact Bool.false_ne_true)

end Text

theorem Operator.isBlank_char (o : Operator) : Text.isBlank o.char = false := by
  cases o <;> rfl

/-- An operator between terms is found by its character. -/
theorem Operator.additive?_char (o : Grammar.Additive) : additive? o.1.char = some o.1 := by
  obtain ⟨o, rfl | rfl⟩ := o <;> rfl

/-- An operator between factors is found by its character. -/
theorem Operator.multiplicative?_char (o : Grammar.Multiplicative) :
    multiplicative? o.1.char = some o.1 := by
  obtain ⟨o, rfl | rfl | rfl⟩ := o <;> rfl

namespace Cursor

/-- Past given blanks, at a character that is none. -/
theorem pastBlanks_append_cons (k : Nat) {b : List Char} (hb : ∀ a ∈ b, Text.isBlank a = true)
    {a : Char} (ha : Text.isBlank a = false) (r : List Char) :
    (Cursor.mk k (b ++ a :: r)).pastBlanks = ⟨k + b.length, a :: r⟩ := by
  rw [pastBlanks_append k hb]
  refine pastBlanks_eq_self fun a' h => ?_
  rw [← Option.some.inj h]
  exact ha

/-- Past a run of a class, at the end of the run. -/
theorem forward_takeWhile_append (k : Nat) {p : Char → Bool} {w r : List Char}
    (hw : ∀ a ∈ w, p a = true) (hr : ∀ a, r.head? = some a → p a = false) :
    (Cursor.mk k (w ++ r)).forward ((w ++ r).takeWhile p).length = ⟨k + w.length, r⟩ := by
  rw [Text.takeWhile_append_of_head? hw hr]
  simp [forward]

end Cursor

namespace Level

/-- The characters that may follow a level, past blanks. -/
def closers : Level → List Char
  | expression => [')']
  | term => [')', '+', '-']
  | factor => [')', '+', '-', '*', '/', '%']
  | primary | call => [')', '+', '-', '*', '/', '%', '^']

/-- What closes a primary is no blank and no part of a name or number. -/
theorem of_mem_closers_primary {a : Char} (h : a ∈ primary.closers) :
    Text.isBlank a = false ∧ a.isAlphanum = false ∧ a ≠ '.' := by
  simp only [closers, List.mem_cons, List.not_mem_nil, or_false] at h
  rcases h with rfl | rfl | rfl | rfl | rfl | rfl | rfl <;> decide

end Level

/-- The text `r` may follow a level: past blanks it is at its end, or at one of the
    characters of the level, but not at a power for a level that would take it. -/
structure Follows (l : Level) (r : List Char) : Prop where
  closed : ∀ a, (r.dropWhile Text.isBlank).head? = some a → a ∈ l.closers
  not_power : l = .factor → ¬ ['*', '*'] <+: r.dropWhile Text.isBlank

namespace Follows

variable {r : List Char}

/-! ## What closes a level closes those within it -/

theorem term (h : Follows .expression r) : Follows .term r where
  closed a ha := by
    have := h.closed a ha
    simp only [Level.closers, List.mem_singleton] at this
    simp [Level.closers, this]
  not_power := nofun

theorem factor (h : Follows .term r) : Follows .factor r where
  closed a ha := by
    have := h.closed a ha
    simp only [Level.closers, List.mem_cons, List.not_mem_nil, or_false] at this
    rcases this with rfl | rfl | rfl <;> decide
  not_power _ hp := by
    obtain ⟨s, hs⟩ := hp
    have := h.closed '*' (by rw [← hs]; rfl)
    revert this
    decide

theorem primary (h : Follows .factor r) : Follows .primary r where
  closed a ha := by
    have := h.closed a ha
    simp only [Level.closers, List.mem_cons, List.not_mem_nil, or_false] at this
    rcases this with rfl | rfl | rfl | rfl | rfl | rfl <;> decide
  not_power := nofun

/-! ## What does not follow -/

/-- Names and numbers end there. -/
theorem isAlphanum_eq_false (h : Follows .primary r) (a : Char) (ha : r.head? = some a) :
    a.isAlphanum = false ∧ a ≠ '.' := by
  cases hb : Text.isBlank a with
  | true =>
    refine ⟨?_, ?_⟩
    · cases hn : a.isAlphanum with
      | true => rw [Text.isBlank_eq_false_of_isAlphanum hn] at hb; exact absurd hb nofun
      | false => rfl
    · rintro rfl
      exact absurd hb (by decide)
  | false =>
    obtain ⟨s, rfl⟩ := List.head?_eq_some_iff.1 ha
    rw [← Text.dropWhile_isBlank_cons hb s] at ha
    exact (Level.of_mem_closers_primary (h.closed a ha)).2

theorem isDigit_eq_false (h : Follows .primary r) (a : Char) (ha : r.head? = some a) :
    a.isDigit = false := by
  have := (h.isAlphanum_eq_false a ha).1
  rw [Char.isAlphanum, Bool.or_eq_false_iff] at this
  exact this.2

/-- No operator between terms stands there. -/
theorem additive?_eq_none (h : Follows .expression r) :
    (r.dropWhile Text.isBlank).head?.bind Operator.additive? = none := by
  cases ha : (r.dropWhile Text.isBlank).head? with
  | none => rfl
  | some a =>
    have := h.closed a ha
    simp only [Level.closers, List.mem_singleton] at this
    rw [this]
    rfl

/-- No operator between factors stands there. -/
theorem multiplicative?_eq_none (h : Follows .term r) :
    (r.dropWhile Text.isBlank).head?.bind Operator.multiplicative? = none := by
  cases ha : (r.dropWhile Text.isBlank).head? with
  | none => rfl
  | some a =>
    have := h.closed a ha
    simp only [Level.closers, List.mem_cons, List.not_mem_nil, or_false] at this
    rcases this with rfl | rfl | rfl <;> rfl

/-- No sign of a power stands there. -/
theorem run_powerSign (h : Follows .factor r) (k : Nat) :
    Reader.powerSign.run (Cursor.mk k r).pastBlanks = .ok false (Cursor.mk k r).pastBlanks := by
  rw [Reader.run_powerSign, Cursor.rest_pastBlanks, if_neg, if_neg]
  · rintro ⟨h₀, h₁⟩
    refine h.not_power rfl ?_
    cases hr : r.dropWhile Text.isBlank with
    | nil => simp [hr] at h₀
    | cons a s =>
      cases s with
      | nil => simp [hr] at h₁
      | cons b s =>
        simp only [hr, List.getElem?_cons_zero, List.getElem?_cons_succ, Option.some.injEq] at h₀ h₁
        rw [h₀, h₁]
        exact List.prefix_append ['*', '*'] s
  · intro hc
    have := h.closed '^' hc
    revert this
    decide

end Follows

namespace Grammar

/-! ## What follows in a tree -/

/-- What stands past blanks is all that counts. -/
theorem follows_append {l : Level} (b : Blanks) {r : List Char} (h : Follows l r) :
    Follows l (b.1 ++ r) := by
  obtain ⟨b, hb⟩ := b
  constructor
  · rw [Text.dropWhile_isBlank_append hb]
    exact h.closed
  · rw [Text.dropWhile_isBlank_append hb]
    exact h.not_power

/-- A character that closes a level does so, unless it makes a power with the next. -/
theorem follows_cons {l : Level} {a : Char} (ha : a ∈ l.closers) (hb : Text.isBlank a = false)
    {r : List Char} (hr : l = .factor → a = '*' → r.head? ≠ some '*') : Follows l (a :: r) := by
  constructor
  · intro a' h
    rw [Text.dropWhile_isBlank_cons hb] at h
    rwa [← Option.some.inj h]
  · intro hl hp
    rw [Text.dropWhile_isBlank_cons hb, List.cons_prefix_cons] at hp
    obtain ⟨rfl, s, hs⟩ := hp
    exact hr hl rfl (by rw [← hs]; rfl)

/-- The blanks at the end of a text may follow anything. -/
theorem follows_blanks (l : Level) (b : Blanks) : Follows l b.1 := by
  have h : Follows l [] := ⟨nofun, fun _ h => absurd h.length_le (by decide)⟩
  have := follows_append b h
  rwa [List.append_nil] at this

theorem follows_close (b : Blanks) (r : List Char) : Follows .expression (b.1 ++ ')' :: r) :=
  follows_append b (follows_cons (by decide) (by decide) nofun)

theorem follows_additive (b : Blanks) (o : Additive) (r : List Char) :
    Follows .term (b.1 ++ o.1.char :: r) := by
  refine follows_append b (follows_cons ?_ o.1.isBlank_char nofun)
  obtain ⟨o, rfl | rfl⟩ := o <;> decide

theorem follows_sign (b : Blanks) (s : PowerSign) (r : List Char) :
    Follows .primary (b.1 ++ (s.chars ++ r)) := by
  refine follows_append b ?_
  cases s with
  | caret => exact follows_cons (by decide) (by decide) nofun
  | stars => exact follows_cons (by decide) (by decide) nofun

/-- A number begins with a digit or a point. -/
theorem Numeral.exists_chars_eq_cons (n : Numeral) :
    ∃ a w, n.chars = a :: w ∧ (a.isDigit = true ∨ a = '.') := by
  cases n with
  | whole digits h =>
    obtain ⟨_ | ⟨d, ds⟩, hd⟩ := digits
    · exact absurd rfl h
    · exact ⟨d, ds, rfl, .inl (hd d List.mem_cons_self)⟩
  | pointed digits fraction h =>
    obtain ⟨_ | ⟨d, ds⟩, hd⟩ := digits
    · exact ⟨'.', fraction.1, rfl, .inr rfl⟩
    · exact ⟨d, ds ++ '.' :: fraction.1, rfl, .inl (hd d List.mem_cons_self)⟩

/-- A primary begins with a parenthesis, a letter, a digit or a point. -/
theorem Primary.exists_chars_eq_cons (p : Primary) :
    ∃ a w, p.chars = a :: w ∧ (a = '(' ∨ a.isAlpha = true ∨ a.isDigit = true ∨ a = '.') := by
  cases p with
  | number n =>
    obtain ⟨a, w, hn, ha⟩ := n.exists_chars_eq_cons
    exact ⟨a, w, hn, .inr (.inr ha)⟩
  | group e before => exact ⟨'(', e.chars ++ before.1 ++ [')'], rfl, .inl rfl⟩
  | call name between e before =>
    exact ⟨name.first, name.rest ++ between.1 ++ '(' :: e.chars ++ before.1 ++ [')'],
      by simp [Primary.chars, Name.chars], .inr (.inl name.first_isAlpha)⟩

/-- All characters of a name are letters and digits. -/
theorem Name.isAlphanum_of_mem_chars (n : Name) : ∀ a ∈ n.chars, a.isAlphanum = true := by
  intro a ha
  rcases List.mem_cons.1 ha with rfl | ha
  · exact Text.isAlphanum_of_isAlpha n.first_isAlpha
  · exact n.rest_isAlphanum a ha

/-- Between a name and its parenthesis there are only blanks. -/
theorem isAlphanum_eq_false_of_head?_append (b : Blanks) (r : List Char) (a : Char)
    (h : (b.1 ++ '(' :: r).head? = some a) : a.isAlphanum = false := by
  obtain ⟨_ | ⟨x, b⟩, hb⟩ := b
  · rw [← Option.some.inj h]
    rfl
  · rw [← Option.some.inj h]
    cases hx : x.isAlphanum with
    | false => rfl
    | true =>
      have := hb x List.mem_cons_self
      rw [Text.isBlank_eq_false_of_isAlphanum hx] at this
      exact this.symm

/-- What begins a primary is no blank and no operator. -/
theorem of_begins_primary {a : Char}
    (h : a = '(' ∨ a.isAlpha = true ∨ a.isDigit = true ∨ a = '.') :
    Text.isBlank a = false ∧ a ≠ '-' ∧ a ≠ '*' := by
  rcases h with rfl | h | h | rfl
  · decide
  · refine ⟨Text.isBlank_eq_false_of_isAlphanum (Text.isAlphanum_of_isAlpha h), ?_, ?_⟩ <;>
      rintro rfl <;> exact absurd h (by decide)
  · refine ⟨Text.isBlank_eq_false_of_isAlphanum (Text.isAlphanum_of_isDigit h), ?_, ?_⟩ <;>
      rintro rfl <;> exact absurd h (by decide)
  · decide

/-- No factor begins with a star, so an operator before it stands alone. -/
theorem Factor.head?_chars_ne_star (f : Factor) (r : List Char) :
    (f.chars ++ r).head? ≠ some '*' := by
  have hblank {b : Blanks} {a : Char} (ha : a ≠ '*') (s : List Char) :
      (b.1 ++ a :: s).head? ≠ some '*' := by
    obtain ⟨_ | ⟨x, b⟩, hb⟩ := b
    · exact fun h => ha (Option.some.inj h)
    · intro h
      have hx := hb x List.mem_cons_self
      rw [Option.some.inj h] at hx
      exact absurd hx (by decide)
  cases f with
  | neg before f =>
    rw [Factor.chars, List.append_assoc]
    exact hblank (by decide) _
  | primary before p =>
    obtain ⟨a, w, hp, ha⟩ := p.exists_chars_eq_cons
    rw [Factor.chars, hp, List.append_assoc]
    exact hblank (of_begins_primary ha).2.2 _
  | power before base between sign exponent =>
    obtain ⟨a, w, hp, ha⟩ := base.exists_chars_eq_cons
    rw [Factor.chars, hp, List.append_assoc, List.append_assoc, List.append_assoc,
      List.append_assoc]
    exact hblank (of_begins_primary ha).2.2 _

theorem follows_multiplicative (b : Blanks) (o : Multiplicative) (f : Factor) (r : List Char) :
    Follows .factor (b.1 ++ o.1.char :: (f.chars ++ r)) := by
  refine follows_append b (follows_cons ?_ o.1.isBlank_char fun _ _ => f.head?_chars_ne_star r)
  obtain ⟨o, rfl | rfl | rfl⟩ := o <;> decide

end Grammar

end Calculator
